import AutowareUniverse.Library.RootedTree
import Mathlib.Tactic.Linarith
import Mathlib.Tactic.Ring

/-!
# Label setting searches

A search visits the nodes of a graph in the order of their distances from a source.
The edges of a node are numbered; a label of a node is the distance of a path to it
and the last edge of this path.  Nodes whose label was improved are queued, and a
search may stop as soon as its target is visited.
-/

namespace AutowareUniverse.Library.LabelSearch

open Library.RootedTree

variable {V ι R : Type*} [DecidableEq V]

/-- The state of a search. -/
structure Labels (V ι R : Type*) where
  visited : V → Bool
  distance : V → R
  previous : V → V × ι
  queue : List (R × V)

variable (previous : V → V × ι)

/-- The node before a node on the path to it. -/
def parent (source v : V) : Option V :=
  if v = source then none else some (previous v).1

@[simp] theorem parent_source (source : V) :
    parent previous source source = none := by
  simp [parent]

theorem parent_of_ne {source v : V} (hne : v ≠ source) :
    parent previous source v = some (previous v).1 := by
  simp [parent, hne]

namespace Labels

/-- Visit a node that was taken from the queue. -/
def visit (labels : Labels V ι R) (v : V) (rest : List (R × V)) : Labels V ι R :=
  { labels with
    visited := Function.update labels.visited v true
    queue := rest }

/-- Improve the label of a node through an edge of another node. -/
def improve (labels : Labels V ι R) (u : V) (i : ι) (v : V) (distance : R)
    (queue : List (R × V)) : Labels V ι R :=
  { labels with
    distance := Function.update labels.distance v distance
    previous := Function.update labels.previous v (u, i)
    queue := queue }

end Labels

variable [CommRing R] [LinearOrder R]

/-- The label of a node goes through an edge of a node that was visited. -/
structure Labelled (edge : V → ι → V → Prop) (length : V → V → R) (labels : Labels V ι R)
    (v : V) : Prop where
  isEdge : edge (labels.previous v).1 (labels.previous v).2 v
  visited : labels.visited (labels.previous v).1 = true
  distance : labels.distance v =
    labels.distance (labels.previous v).1 + length (labels.previous v).1 v

/-- What holds while a search goes on, where the front is the greatest distance of a
visited node, and the edges that are exempt were not gone over yet. -/
structure Explored (edge : V → ι → V → Prop) (length : V → V → R) (source : V) (limit : R)
    (front : R) (exempt : V → ι → Prop) (labels : Labels V ι R) : Prop where
  distance_source : labels.distance source = 0
  nonneg : ∀ v, 0 ≤ labels.distance v
  le_limit : ∀ v, labels.distance v ≤ limit
  label : ∀ v, v ≠ source → labels.distance v < limit → Labelled edge length labels v
  rooted : ∀ v, labels.visited v = true →
    ∃ path, PathTo (parent labels.previous source) source (v :: path) ∧
      ∀ w ∈ v :: path, labels.visited w = true
  below : ∀ v, labels.visited v = true → labels.distance v < limit
  visited_le : ∀ v, labels.visited v = true → labels.distance v ≤ front
  front_le : ∀ entry ∈ labels.queue, front ≤ entry.1
  entry : ∀ entry ∈ labels.queue, labels.distance entry.2 ≤ entry.1 ∧ entry.1 < limit
  queued : ∀ v, labels.visited v = false → labels.distance v < limit →
    (labels.distance v, v) ∈ labels.queue
  relaxed : ∀ u i v, labels.visited u = true → edge u i v → ¬ exempt u i →
    labels.distance v ≤ labels.distance u + length u v

namespace Explored

variable {edge : V → ι → V → Prop} {length : V → V → R} {source : V} {limit front : R}
  {exempt : V → ι → Prop} {labels : Labels V ι R}

theorem start (previous : V → V × ι) (hlimit : 0 < limit) :
    Explored edge length source limit 0 (fun _ _ => False)
      ⟨fun _ => false, Function.update (fun _ => limit) source 0, previous, [(0, source)]⟩ where
  distance_source := by simp
  nonneg v := by
    by_cases hv : v = source
    · simp [hv]
    · simp [hv, hlimit.le]
  le_limit v := by
    by_cases hv : v = source
    · simp [hv, hlimit.le]
    · simp [hv]
  label v hne hlt := by simp [hne] at hlt
  rooted v hvisited := by cases hvisited
  below v hvisited := by cases hvisited
  visited_le v hvisited := by cases hvisited
  front_le entry hmem := by rw [List.mem_singleton.mp hmem]
  entry entry hmem := by
    rw [List.mem_singleton.mp hmem]
    simp [hlimit]
  queued v _ hlt := by
    by_cases hv : v = source
    · simp [hv]
    · simp [hv] at hlt
  relaxed u i v hvisited := by cases hvisited

variable {rest : List (R × V)} {distance : R}

theorem distance_eq (hexplored : Explored edge length source limit front exempt labels)
    {v : V} (hqueue : labels.queue = (distance, v) :: rest)
    (hleast : ∀ entry ∈ rest, distance ≤ entry.1) (hnew : labels.visited v = false) :
    distance = labels.distance v := by
  obtain ⟨hle, hlt⟩ := hexplored.entry (distance, v) (hqueue ▸ List.mem_cons_self)
  have hqueued := hexplored.queued v hnew (hle.trans_lt hlt)
  rw [hqueue] at hqueued
  rcases List.mem_cons.mp hqueued with heq | hmem
  · exact (Prod.mk.inj heq).1.symm
  · exact le_antisymm (hleast _ hmem) hle

/-- Drop an entry of a node that was visited before. -/
theorem skip (hexplored : Explored edge length source limit front exempt labels) {v : V}
    (hqueue : labels.queue = (distance, v) :: rest) (hvisited : labels.visited v = true) :
    Explored edge length source limit front exempt { labels with queue := rest } where
  distance_source := hexplored.distance_source
  nonneg := hexplored.nonneg
  le_limit := hexplored.le_limit
  label v hne hlt := by
    obtain ⟨hedge, hvisited, hdistance⟩ := hexplored.label v hne hlt
    exact ⟨hedge, hvisited, hdistance⟩
  rooted := hexplored.rooted
  below := hexplored.below
  visited_le := hexplored.visited_le
  front_le entry hmem := hexplored.front_le entry (hqueue ▸ List.mem_cons_of_mem _ hmem)
  entry entry hmem := hexplored.entry entry (hqueue ▸ List.mem_cons_of_mem _ hmem)
  queued w hnew hlt := by
    have hqueued := hexplored.queued w hnew hlt
    rw [hqueue] at hqueued
    rcases List.mem_cons.mp hqueued with heq | hmem
    · rw [(Prod.mk.inj heq).2, hvisited] at hnew
      cases hnew
    · exact hmem
  relaxed := hexplored.relaxed

theorem visit (hexplored : Explored edge length source limit front (fun _ _ => False) labels)
    {v : V} (hqueue : labels.queue = (distance, v) :: rest)
    (hleast : ∀ entry ∈ rest, distance ≤ entry.1) (hnew : labels.visited v = false) :
    Explored edge length source limit distance (fun u _ => u = v) (labels.visit v rest) := by
  have hdistance := hexplored.distance_eq hqueue hleast hnew
  have hentry := hexplored.entry (distance, v) (hqueue ▸ List.mem_cons_self)
  have hfront := hexplored.front_le (distance, v) (hqueue ▸ List.mem_cons_self)
  have hkeeps {w : V} (hw : labels.visited w = true) :
      Function.update labels.visited v true w = true := by
    by_cases heq : w = v
    · simp [heq]
    · simpa [heq] using hw
  have hcases {w : V} (hw : Function.update labels.visited v true w = true) :
      w = v ∨ labels.visited w = true := by
    by_cases heq : w = v
    · exact .inl heq
    · exact .inr (by simpa [heq] using hw)
  refine ⟨hexplored.distance_source, hexplored.nonneg, hexplored.le_limit, ?_, ?_, ?_, ?_, hleast, ?_,
    ?_, ?_⟩
  · intro w hne hlt
    obtain ⟨hedge, hvisited, hlabel⟩ := hexplored.label w hne hlt
    exact ⟨hedge, hkeeps hvisited, hlabel⟩
  · intro w hw
    rcases hcases hw with rfl | hold
    · by_cases hsource : w = source
      · refine ⟨[], hsource ▸ .root, fun other hmem => ?_⟩
        rw [List.mem_singleton.mp hmem]
        exact hw
      · obtain ⟨_, hprevious, _⟩ := hexplored.label w hsource (hdistance ▸ hentry.2)
        obtain ⟨path, hpath, hall⟩ := hexplored.rooted _ hprevious
        refine ⟨_, .step (parent_of_ne labels.previous hsource) hpath, fun other hmem => ?_⟩
        rcases List.mem_cons.mp hmem with rfl | hmem
        · exact hw
        · exact hkeeps (hall other hmem)
    · obtain ⟨path, hpath, hall⟩ := hexplored.rooted w hold
      exact ⟨path, hpath, fun other hmem => hkeeps (hall other hmem)⟩
  · intro w hw
    rcases hcases hw with rfl | hold
    · exact hdistance ▸ hentry.2
    · exact hexplored.below w hold
  · intro w hw
    rcases hcases hw with rfl | hold
    · exact hdistance.ge
    · exact (hexplored.visited_le w hold).trans hfront
  · exact fun entry hmem => hexplored.entry entry (hqueue ▸ List.mem_cons_of_mem _ hmem)
  · intro w hw hlt
    have hne : w ≠ v := by
      rintro rfl
      simp [Labels.visit] at hw
    have hqueued := hexplored.queued w (by simpa [Labels.visit, hne] using hw) hlt
    rw [hqueue] at hqueued
    rcases List.mem_cons.mp hqueued with heq | hmem
    · exact absurd (Prod.mk.inj heq).2 hne
    · exact hmem
  · intro u i w hu hedge hexempt
    rcases hcases hu with heq | hold
    · exact absurd heq hexempt
    · exact hexplored.relaxed u i w hold hedge not_false

/-- Go over an edge that improves no label. -/
theorem keep {exempt' : V → ι → Prop}
    (hexplored : Explored edge length source limit front exempt labels)
    (hdone : ∀ u i w, exempt u i → ¬ exempt' u i → edge u i w →
      labels.distance w ≤ labels.distance u + length u w) :
    Explored edge length source limit front exempt' labels :=
  { hexplored with
    relaxed := by
      intro u i w hvisited hedge hexempt
      by_cases hbefore : exempt u i
      · exact hdone u i w hbefore hexempt hedge
      · exact hexplored.relaxed u i w hvisited hedge hbefore }

theorem visited_of_empty (hexplored : Explored edge length source limit front exempt labels)
    (hqueue : labels.queue = []) {v : V} (hlt : labels.distance v < limit) :
    labels.visited v = true := by
  cases hvisited : labels.visited v with
  | true => rfl
  | false =>
    have hqueued := hexplored.queued v hvisited hlt
    rw [hqueue] at hqueued
    cases hqueued

variable [IsStrictOrderedRing R]

theorem improve {exempt' : V → ι → Prop} {u v : V} {i : ι} {queue : List (R × V)}
    (hexplored : Explored edge length source limit front exempt labels)
    (hu : labels.visited u = true) (hfront : labels.distance u = front) (hedge : edge u i v)
    (hlength : 0 ≤ length u v) (hnew : labels.visited v = false)
    (hless : labels.distance u + length u v < labels.distance v) (hqueue : ∀ entry, entry ∈ queue ↔
      entry = (labels.distance u + length u v, v) ∨ entry ∈ labels.queue)
    (hdone : ∀ u' i', exempt u' i' → ¬ exempt' u' i' → ∀ w, edge u' i' w → u' = u ∧ w = v) :
    Explored edge length source limit front exempt'
      (labels.improve u i v (labels.distance u + length u v) queue) := by
  have hsource : v ≠ source := by
    rintro rfl
    have hle := hexplored.nonneg u
    rw [hexplored.distance_source] at hless
    linarith
  have hapart {w : V} (hw : labels.visited w = true) : w ≠ v := by
    rintro rfl
    rw [hw] at hnew
    cases hnew
  have hsame {w : V} (hne : w ≠ v) :
      (labels.improve u i v (labels.distance u + length u v) queue).distance w =
        labels.distance w := Function.update_of_ne hne ..
  have hprevious {w : V} (hne : w ≠ v) :
      (labels.improve u i v (labels.distance u + length u v) queue).previous w =
        labels.previous w := Function.update_of_ne hne ..
  have hself : (labels.improve u i v (labels.distance u + length u v) queue).distance v =
      labels.distance u + length u v := Function.update_self ..
  have hself' : (labels.improve u i v (labels.distance u + length u v) queue).previous v =
      (u, i) := Function.update_self ..
  have hle (w : V) : (labels.improve u i v (labels.distance u + length u v) queue).distance w ≤
        labels.distance w := by
    by_cases hw : w = v
    · rw [hw, hself]
      exact hless.le
    · rw [hsame hw]
  refine ⟨?_, ?_, ?_, ?_, ?_, ?_, ?_, ?_, ?_, ?_, ?_⟩
  · rw [hsame hsource.symm, hexplored.distance_source]
  · intro w
    by_cases hw : w = v
    · rw [hw, hself]
      exact add_nonneg (hexplored.nonneg u) hlength
    · rw [hsame hw]
      exact hexplored.nonneg w
  · exact fun w => (hle w).trans (hexplored.le_limit w)
  · intro w hne hlt
    by_cases hw : w = v
    · subst hw
      refine ⟨?_, ?_, ?_⟩
      · rw [hself']
        exact hedge
      · rw [hself']
        exact hu
      · rw [hself', hself, hsame (hapart hu)]
    · rw [hsame hw] at hlt
      obtain ⟨hold, hvisited, hdistance⟩ := hexplored.label w hne hlt
      refine ⟨?_, ?_, ?_⟩
      · rw [hprevious hw]
        exact hold
      · rw [hprevious hw]
        exact hvisited
      · rw [hprevious hw, hsame hw, hsame (hapart hvisited), hdistance]
  · intro w hw
    obtain ⟨path, hpath, hall⟩ := hexplored.rooted w hw
    refine ⟨path, hpath.congr fun other hmem => ?_, hall⟩
    unfold parent
    rw [hprevious (hapart (hall other hmem))]
  · intro w hw
    rw [hsame (hapart hw)]
    exact hexplored.below w hw
  · intro w hw
    rw [hsame (hapart hw)]
    exact hexplored.visited_le w hw
  · intro entry hmem
    rcases (hqueue entry).mp hmem with rfl | hold
    · dsimp only
      linarith
    · exact hexplored.front_le entry hold
  · intro entry hmem
    rcases (hqueue entry).mp hmem with rfl | hold
    · exact ⟨hself.le, hless.trans_le (hexplored.le_limit v)⟩
    · obtain ⟨hdistance, hlt⟩ := hexplored.entry entry hold
      exact ⟨(hle _).trans hdistance, hlt⟩
  · intro w hw hlt
    by_cases heq : w = v
    · rw [heq, hself]
      exact (hqueue _).mpr (.inl rfl)
    · rw [hsame heq] at hlt ⊢
      exact (hqueue _).mpr (.inr (hexplored.queued w hw hlt))
  · intro u' i' w hvisited hedge' hexempt
    rw [hsame (hapart hvisited)]
    by_cases hbefore : exempt u' i'
    · obtain ⟨rfl, rfl⟩ := hdone u' i' hbefore hexempt w hedge'
      exact hself.le
    · exact (hle w).trans (hexplored.relaxed u' i' w hvisited hedge' hbefore)

end Explored

end AutowareUniverse.Library.LabelSearch

namespace AutowareUniverse.Library.ResidualPotentials

/-! ## Potentials of residual graphs -/

open LabelSearch

variable {V ι R : Type*} [CommRing R]

/-- The cost of an edge, corrected by the potentials of its ends. -/
def reduced (weight : V → V → R) (potential : V → R) (u v : V) : R :=
  weight u v + potential u - potential v

theorem reduced_swap {weight : V → V → R} (hskew : ∀ u v, weight v u = -weight u v)
    (potential : V → R) (u v : V) : reduced weight potential v u = -reduced weight potential u v := by
  unfold reduced
  rw [hskew u v]
  ring

def raise (potential : V → R) (labels : Labels V ι R) (target v : V) : R :=
  if labels.visited v then potential v + labels.distance v
  else potential v + labels.distance target

variable {residual : V → V → Prop} {weight : V → V → R} {potential : V → R}
  {labels : Labels V ι R} {target : V}

theorem raise_of_visited {v : V} (hv : labels.visited v = true) :
    raise potential labels target v = potential v + labels.distance v :=
  if_pos hv

theorem raise_of_not_visited {v : V} (hv : labels.visited v = false) :
    raise potential labels target v = potential v + labels.distance target :=
  if_neg (by simp [hv])

/-- The edges on the path that was found are tight. -/
theorem reduced_raise_eq_zero {u v : V} (hu : labels.visited u = true)
    (hv : labels.visited v = true)
    (hdistance : labels.distance v = labels.distance u + reduced weight potential u v) :
    reduced weight (raise potential labels target) u v = 0 := by
  unfold reduced at *
  rw [raise_of_visited hu, raise_of_visited hv, hdistance]
  ring

variable [LinearOrder R]

/-- No residual edge has a negative reduced cost. -/
def Feasible (residual : V → V → Prop) (weight : V → V → R) (potential : V → R) : Prop :=
  ∀ u v, residual u v → 0 ≤ reduced weight potential u v

theorem Feasible.turn {residual' : V → V → Prop} (hfeasible : Feasible residual weight potential)
    (hskew : ∀ u v, weight v u = -weight u v)
    (hturn : ∀ u v, residual' u v → residual u v ∨ reduced weight potential v u = 0) :
    Feasible residual' weight potential := by
  intro u v hresidual
  rcases hturn u v hresidual with hold | htight
  · exact hfeasible u v hold
  · rw [reduced_swap hskew, htight, neg_zero]

variable [IsStrictOrderedRing R]

theorem le_raise (hnonneg : ∀ v, 0 ≤ labels.distance v) (v : V) :
    potential v ≤ raise potential labels target v := by
  unfold raise
  split
  · exact le_add_of_nonneg_right (hnonneg v)
  · exact le_add_of_nonneg_right (hnonneg target)

variable [DecidableEq V] {edge : V → ι → V → Prop} {source : V} {limit : R}

theorem Feasible.raise (hfeasible : Feasible residual weight potential)
    (hedge : ∀ u v, residual u v → ∃ i, edge u i v)
    (hexplored : Explored edge (reduced weight potential) source limit
      (labels.distance target) (fun u _ => u = target) labels)
    (htarget : labels.visited target = true) :
    Feasible residual weight (ResidualPotentials.raise potential labels target) := by
  intro u v hresidual
  have hreduced := hfeasible u v hresidual
  -- what the potential of a node is raised by is the less of the two distances
  have hdistance (w : V) :
      ResidualPotentials.raise potential labels target w ≤ potential w + labels.distance w := by
    cases hw : labels.visited w with
    | true => exact (raise_of_visited hw).le
    | false =>
      rw [raise_of_not_visited hw]
      refine add_le_add_right ?_ _
      rcases lt_or_ge (labels.distance w) limit with hlt | hge
      · exact hexplored.front_le _ (hexplored.queued w hw hlt)
      · exact (hexplored.below target htarget).le.trans hge
  have hcapped (w : V) : ResidualPotentials.raise potential labels target w ≤
      potential w + labels.distance target := by
    cases hw : labels.visited w with
    | true =>
      rw [raise_of_visited hw]
      exact add_le_add_right (hexplored.visited_le w hw) _
    | false => exact (raise_of_not_visited hw).le
  have hv := hdistance v
  have hv' := hcapped v
  unfold reduced at hreduced ⊢
  by_cases hu : labels.visited u = true ∧ u ≠ target
  · obtain ⟨i, hedge⟩ := hedge u v hresidual
    have hrelaxed := hexplored.relaxed u i v hu.1 hedge hu.2
    unfold reduced at hrelaxed
    rw [raise_of_visited hu.1]
    linarith
  · have hlast : ResidualPotentials.raise potential labels target u =
        potential u + labels.distance target := by
      cases hvisited : labels.visited u with
      | true =>
        have heq : u = target := by
          by_contra hne
          exact hu ⟨hvisited, hne⟩
        rw [heq, raise_of_visited htarget]
      | false => exact raise_of_not_visited hvisited
    rw [hlast]
    linarith

end AutowareUniverse.Library.ResidualPotentials
