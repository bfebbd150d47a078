import AutowareUniverse.Common.Geometry2d
import AutowareUniverse.Library.ConvexChains

/-!
# Convex hulls

The points are moved between two lists: those of the lower hull from the sorted list to the hull,
then those of the upper hull from the end of what is left.  Points that are taken off the hull
go back to the list, where a second pass may find them.
-/

namespace AutowareUniverse.Common.ConvexHull

open Common.Geometry

variable {K : Type} [Field K] [LinearOrder K]

/-- The epsilon of single precision. -/
def FEPS : K := 1 / 8388608

/-- True for three points that turn right or are on a line. -/
def ccw (pt q r : Point K) : Bool :=
  (q.x - pt.x) * (r.y - pt.y) - (q.y - pt.y) * (r.x - pt.x) ≤ 0

def lexicalComparator (a b : Point K) : Bool :=
  if FEPS < |a.x - b.x| then a.x < b.x else a.y < b.y

def sort (list : List (Point K)) : List (Point K) :=
  list.mergeSort fun a b => !lexicalComparator b a

def takeOff (point : Point K) : List (Point K) → List (Point K) × List (Point K)
  | current :: before :: hull =>
    if ccw before current point then
      let (kept, taken) := takeOff point (before :: hull)
      (kept, current :: taken)
    else (current :: before :: hull, [])
  | hull => (hull, [])

def lowerLoop : ℕ → List (Point K) → List (Point K) → List (Point K) × List (Point K)
  | 0, points, hull => (points, hull)
  | _ + 1, [], hull => ([], hull)
  | iters + 1, point :: points, hull =>
    let (kept, taken) := takeOff point hull
    lowerLoop iters (points ++ taken) (point :: kept)

def formLowerHull (points : List (Point K)) : List (Point K) × List (Point K) :=
  lowerLoop points.length points []

def upperLoop : ℕ → List (Point K) → List (Point K) → List (Point K) × List (Point K)
  | 0, points, hull => (points, hull)
  | iters + 1, points, hull =>
    match points.getLast? with
    | none => (points, hull)
    | some point =>
      let (kept, taken) := takeOff point hull
      upperLoop iters (taken.reverse ++ points.dropLast) (point :: kept)

def formUpperHull (points : List (Point K)) : List (Point K) → List (Point K) × List (Point K)
  | [] => (points, [])
  | lowerHullEnd :: lower =>
    let (points, upper) := upperLoop points.length points [lowerHullEnd]
    (points, upper ++ lower)

/-! ## The hull -/

def convexHullImpl (list : List (Point K)) : List (Point K) × ℕ :=
  let (list, hull) := formLowerHull (sort list)
  -- the first point of the hull closes the upper hull
  let list := hull.getLast?.toList ++ sort list
  let (list, hull) := formUpperHull list hull.dropLast
  (hull.head?.toList ++ hull.tail.reverse ++ list, hull.length)

def convexHull (list : List (Point K)) : List (Point K) × ℕ :=
  if list.length ≤ 3 then (list, list.length) else convexHullImpl list

end AutowareUniverse.Common.ConvexHull

/-!
# The vertices of convex hulls

The two passes are sweeps from both ends of the sorted points.  Each keeps a convex chain that
has the points it has met on its left; the corners of the lower chain, that the second pass does
not meet, are below the upper one.  Both chains close to the convex hull.
-/

namespace AutowareUniverse.Common.Geometry

open Library.PlaneTurns Library.ConvexChains
open ConvexHull (ccw lexicalComparator sort takeOff lowerLoop formLowerHull upperLoop formUpperHull
  convexHullImpl FEPS)

variable {K : Type} [Field K]

def position (p : Point K) : K × K :=
  (p.x, p.y)

def pointTurn (a b c : Point K) : K :=
  turn (position a) (position b) (position c)

variable [LinearOrder K]

theorem ccw_iff {pt q r : Point K} : ccw pt q r = true ↔ pointTurn pt q r ≤ 0 :=
  decide_eq_true_iff

/-- A point comes before another one in the order of the sweep. -/
def Precedes (C : ConvexCone K (K × K)) (p q : Point K) : Prop :=
  Behind C (position p) (position q)

def AbscissasApart (list : List (Point K)) : Prop :=
  ∀ a ∈ list, ∀ b ∈ list, a.x = b.x ∨ FEPS < |a.x - b.x|

variable [IsStrictOrderedRing K] {list : List (Point K)}

theorem precedes_lexCone {p q : Point K} :
    Precedes lexCone p q ↔ p.x < q.x ∨ p.x = q.x ∧ p.y ≤ q.y := by
  rw [Precedes, Behind, mem_lexCone]
  simp only [position, Prod.fst_sub, Prod.snd_sub, sub_pos, sub_eq_zero, sub_nonneg]
  rw [eq_comm]

theorem lexicalComparator_eq (hapart : AbscissasApart list) {a b : Point K} (ha : a ∈ list)
    (hb : b ∈ list) :
    (!lexicalComparator b a) = decide (a.x < b.x ∨ a.x = b.x ∧ a.y ≤ b.y) := by
  have hpos : (0 : K) ≤ FEPS := by
    unfold FEPS
    positivity
  unfold lexicalComparator
  rcases hapart b hb a ha with heq | hfar
  · rw [heq, sub_self, abs_zero, if_neg (not_lt.mpr hpos), ← decide_not]
    simp
  · have hne : a.x ≠ b.x := by
      intro heq
      rw [heq, sub_self, abs_zero] at hfar
      exact absurd hfar (not_lt.mpr hpos)
    rw [if_pos hfar, ← decide_not, decide_eq_decide, not_lt]
    exact ⟨fun hle => .inl (lt_of_le_of_ne hle hne), fun hlex => hlex.elim le_of_lt
      fun hboth => hboth.1.le⟩

theorem pairwise_sort (hapart : AbscissasApart list) :
    (sort list).Pairwise (Precedes lexCone) := by
  have hsort : sort list =
      list.mergeSort fun a b => decide (a.x < b.x ∨ a.x = b.x ∧ a.y ≤ b.y) := by
    have hmap := @List.map_mergeSort _ _ (fun a b => !lexicalComparator b a)
      (fun a b => decide (a.x < b.x ∨ a.x = b.x ∧ a.y ≤ b.y)) id list
      fun a ha b hb => lexicalComparator_eq hapart ha hb
    rwa [List.map_id, List.map_id] at hmap
  rw [hsort]
  refine (List.pairwise_mergeSort (fun a b c hab hbc => ?_) (fun a b => ?_) list).imp
    fun hle => precedes_lexCone.mpr (of_decide_eq_true hle)
  · rw [decide_eq_true_iff, ← precedes_lexCone] at hab hbc ⊢
    exact Behind.trans hab hbc
  · rw [Bool.or_eq_true, decide_eq_true_iff, decide_eq_true_iff, ← precedes_lexCone,
      ← precedes_lexCone]
    exact sweep_lexCone.total_behind _ _

theorem sort_perm {other : List (Point K)} (hapart : AbscissasApart list)
    (hperm : list.Perm other) : sort list = sort other := by
  have hother : AbscissasApart other := fun a ha b hb =>
    hapart a (hperm.mem_iff.mpr ha) b (hperm.mem_iff.mpr hb)
  have hsorted : (sort list).Perm (sort other) :=
    (List.mergeSort_perm ..).trans (hperm.trans (List.mergeSort_perm ..).symm)
  refine hsorted.eq_of_pairwise ?_ (pairwise_sort hapart) (pairwise_sort hother)
  rintro ⟨x, y⟩ ⟨x', y'⟩ _ _ hab hba
  rw [precedes_lexCone] at hab hba
  rcases hab with hlt | ⟨rfl, hle⟩
  · rcases hba with hgt | ⟨heq, -⟩
    · exact absurd hlt hgt.asymm
    · exact absurd heq hlt.ne'
  · exact congrArg (Point.mk _) (hle.antisymm (hba.resolve_left (lt_irrefl _)).2)

variable {C : ConvexCone K (K × K)}

omit [IsStrictOrderedRing K] in
theorem takeOff_append (point : Point K) (hull : List (Point K)) :
    (takeOff point hull).2 ++ (takeOff point hull).1 = hull := by
  fun_induction takeOff point hull with
  | case1 current before hull hccw kept taken hrest ih =>
    rw [hrest] at ih
    exact congrArg (current :: ·) ih
  | case2 => rfl
  | case3 => rfl

theorem takeOff_supports (hsweep : Sweep C) {seen : List (K × K)} {point t : Point K}
    {hull : List (Point K)} (hchain : Supports C seen ((t :: hull).map position))
    (hbehind : Precedes C t point)
    (hleft : ∀ q ∈ seen, Behind C (position t) q → 0 ≤ turn (position t) (position point) q) :
    ∃ t' hull', (takeOff point (t :: hull)).1 = t' :: hull' ∧
      Supports C seen ((t' :: hull').map position) ∧ Precedes C t' point ∧
      (∀ q ∈ seen, Behind C (position t') q → 0 ≤ turn (position t') (position point) q) ∧
      ∀ s ∈ hull'.head?, 0 < pointTurn s t' point := by
  induction hull generalizing t with
  | nil => exact ⟨t, [], rfl, hchain, hbehind, hleft, fun s hs => absurd hs (by simp)⟩
  | cons before hull ih =>
    by_cases hccw : ccw before t point = true
    · have hbefore : Precedes C before t :=
        List.rel_of_pairwise_cons hchain.ordered List.mem_cons_self
      obtain ⟨t', hull', htaken, hrest⟩ := ih hchain.pop (hbefore.trans hbehind)
        (hchain.pop_left hsweep hbehind (ccw_iff.mp hccw) hleft)
      refine ⟨t', hull', ?_, hrest⟩
      rw [takeOff, if_pos hccw, htaken]
    · refine ⟨t, before :: hull, ?_, hchain, hbehind, hleft, fun s hs => ?_⟩
      · rw [takeOff, if_neg hccw]
      · rw [List.head?_cons, Option.mem_some_iff] at hs
        rw [← hs]
        exact not_le.mp fun hle => hccw (ccw_iff.mpr hle)

/-! ## The passes -/

section
omit [IsStrictOrderedRing K]

theorem takeOff_perm (point : Point K) (hull : List (Point K)) :
    ((takeOff point hull).1 ++ (takeOff point hull).2).Perm hull :=
  List.perm_append_comm.trans (.of_eq (takeOff_append point hull))

theorem lowerLoop_perm (iters : ℕ) (points hull : List (Point K)) :
    ((lowerLoop iters points hull).1 ++ (lowerLoop iters points hull).2).Perm (points ++ hull) := by
  induction iters generalizing points hull with
  | zero => exact .refl _
  | succ iters ih =>
    cases points with
    | nil => exact .refl _
    | cons point points =>
      have hrest := ih (points ++ (takeOff point hull).2) (point :: (takeOff point hull).1)
      refine hrest.trans (List.perm_middle.trans (.cons point ?_))
      rw [List.append_assoc]
      exact .append_left points (.trans List.perm_append_comm (takeOff_perm point hull))

end

/-- The chain after a pass, from the first point to the last one. -/
theorem lowerLoop_supports (hsweep : Sweep C) {points : List (Point K)} {first t : Point K}
    {hull rest : List (Point K)} {seen : List (K × K)}
    (hchain : Supports C seen ((t :: hull).map position))
    (hseen : ∀ q ∈ seen, Behind C (position first) q ∧ Behind C q (position t))
    (hfirst : (t :: hull).getLast? = some first) (horder : Precedes C first t)
    (hsorted : (t :: points).Pairwise (Precedes C)) (hne : hull = [] → points ≠ []) :
    ∃ last mid, (t :: points).getLast? = some last ∧
      (lowerLoop points.length (points ++ rest) (t :: hull)).2 = last :: (mid ++ [first]) ∧
      Supports C (points.reverse.map position ++ seen)
        ((last :: (mid ++ [first])).map position) := by
  induction points generalizing t hull rest seen with
  | nil =>
    cases hull with
    | nil => exact absurd rfl (hne rfl)
    | cons before hull =>
      rw [List.getLast?_cons_cons, List.getLast?_eq_some_iff] at hfirst
      obtain ⟨mid, hmid⟩ := hfirst
      exact ⟨t, mid, rfl, by rw [← hmid]; rfl, hmid ▸ hchain⟩
  | cons point points ih =>
    obtain ⟨hahead, hsorted⟩ := List.pairwise_cons.mp hsorted
    have hbehind : Precedes C t point := hahead point List.mem_cons_self
    obtain ⟨t', hull', htaken, hchain', hbehind', hleft', hturn'⟩ :=
      takeOff_supports hsweep hchain hbehind fun q hq hahead => by
        rw [← hsweep.antisymm (hseen q hq).2 hahead, turn_self_outer]
    have hfirst' : (t' :: hull').getLast? = some first := by
      rwa [← takeOff_append point (t :: hull), htaken, List.getLast?_append_cons] at hfirst
    have hpush : Supports C (position point :: seen) ((point :: t' :: hull').map position) := by
      refine hchain'.push hsweep (fun hnil q hq => ?_) hbehind' hleft' fun s hs => ?_
      · rw [List.map_eq_nil_iff] at hnil
        rw [hnil, List.getLast?_singleton, Option.some_inj] at hfirst'
        exact hfirst' ▸ (hseen q hq).1
      · rw [List.head?_map, Option.mem_def, Option.map_eq_some_iff] at hs
        obtain ⟨s', hs', rfl⟩ := hs
        exact hturn' s' hs'
    have hseen' : ∀ q ∈ position point :: seen,
        Behind C (position first) q ∧ Behind C q (position point) := by
      intro q hq
      rcases List.mem_cons.mp hq with rfl | hq
      · exact ⟨horder.trans hbehind, hsweep.refl _⟩
      · exact ⟨(hseen q hq).1, (hseen q hq).2.trans hbehind⟩
    obtain ⟨last, mid, hlast, hloop, hresult⟩ := @ih point (t' :: hull')
      (rest ++ (takeOff point (t :: hull)).2) (position point :: seen) hpush hseen' hfirst'
      (horder.trans hbehind) hsorted (fun hnil => absurd hnil (List.cons_ne_nil _ _))
    refine ⟨last, mid, hlast, ?_, ?_⟩
    · rw [List.length_cons, List.cons_append, lowerLoop]
      dsimp only
      rw [htaken, List.append_assoc]
      exact hloop
    · rw [List.reverse_cons, List.map_append, List.append_assoc]
      exact hresult

/-- A pass from the first of the points. -/
theorem lowerLoop_start (hsweep : Sweep C) {points : List (Point K)} {first : Point K}
    (hsorted : (first :: points).Pairwise (Precedes C)) (hne : points ≠ []) :
    ∃ last mid, (first :: points).getLast? = some last ∧
      (lowerLoop points.length points [first]).2 = last :: (mid ++ [first]) ∧
      Supports C ((first :: points).map position) ((last :: (mid ++ [first])).map position) := by
  have hstart : Supports C [position first] ([first].map position) :=
    ⟨List.pairwise_singleton .., List.triplewise_singleton .., List.isChain_singleton _⟩
  have hseen : ∀ q ∈ [position first],
      Behind C (position first) q ∧ Behind C q (position first) := by
    intro q hq
    rw [List.mem_singleton.mp hq]
    exact ⟨hsweep.refl _, hsweep.refl _⟩
  obtain ⟨last, mid, hlast, hloop, hchain⟩ := @lowerLoop_supports K _ _ _ C hsweep points first
    first [] [] _ hstart hseen rfl (hsweep.refl _) hsorted fun _ => hne
  rw [List.append_nil] at hloop
  refine ⟨last, mid, hlast, hloop, hchain.of_pairwise fun q hq => .inl ?_⟩
  simp only [List.map_cons, List.mem_cons, List.map_reverse, List.mem_append, List.mem_reverse,
    List.not_mem_nil, or_false] at hq ⊢
  exact hq.symm

section
omit [IsStrictOrderedRing K]

theorem precedes_getLast (hsweep : Sweep C) {points : List (Point K)}
    (hsorted : points.Pairwise (Precedes C)) {last : Point K} (hlast : points.getLast? = some last) :
    ∀ p ∈ points, Precedes C p last := by
  obtain ⟨front, rfl⟩ := List.getLast?_eq_some_iff.mp hlast
  intro p hp
  rcases List.mem_append.mp hp with hfront | hend
  · exact (List.pairwise_append.mp hsorted).2.2 p hfront last List.mem_cons_self
  · rw [List.mem_singleton.mp hend]
    exact hsweep.refl _

theorem upperLoop_eq (iters : ℕ) (points hull : List (Point K)) :
    upperLoop iters points hull = ((lowerLoop iters points.reverse hull).1.reverse,
      (lowerLoop iters points.reverse hull).2) := by
  induction iters generalizing points hull with
  | zero => rw [upperLoop, lowerLoop, List.reverse_reverse]
  | succ iters ih =>
    rcases List.eq_nil_or_concat' points with rfl | ⟨front, point, rfl⟩
    · rfl
    · rw [upperLoop, List.getLast?_concat, List.dropLast_concat, List.reverse_concat, lowerLoop]
      dsimp only
      rw [ih, List.reverse_append, List.reverse_reverse]

end

/-! ## The hull -/

structure HullChains (list : List (Point K)) (first last : Point K)
    (mid upper rest : List (Point K)) : Prop where
  perm : (first :: (mid.reverse ++ last :: upper.reverse) ++ rest).Perm list
  chain : Supports lexCone (list.map position) ((last :: (mid ++ [first])).map position)
  back : Supports (lexCone.comap (-LinearMap.id)) (list.map position)
    ((first :: (upper ++ [last])).map position)
  ordered : ∀ p ∈ list, Precedes lexCone first p ∧ Precedes lexCone p last

section
omit [IsStrictOrderedRing K]

theorem formLowerHull_cons (first : Point K) (points : List (Point K)) :
    formLowerHull (first :: points) = lowerLoop points.length points [first] := by
  rw [formLowerHull, List.length_cons, lowerLoop]
  dsimp only [takeOff]
  rw [List.append_nil]

theorem formUpperHull_cons (points lower : List (Point K)) (lowerHullEnd : Point K) :
    formUpperHull points (lowerHullEnd :: lower) =
      ((lowerLoop points.length points.reverse [lowerHullEnd]).1.reverse,
        (lowerLoop points.length points.reverse [lowerHullEnd]).2 ++ lower) := by
  rw [formUpperHull, upperLoop_eq]

end

theorem convexHullImpl_chains (hapart : AbscissasApart list) (hlength : 1 < list.length) :
    ∃ first last mid upper rest, HullChains list first last mid upper rest ∧
      convexHullImpl list = (first :: (mid.reverse ++ last :: upper.reverse) ++ rest,
        (first :: (mid.reverse ++ last :: upper.reverse)).length) := by
  have hsorted := pairwise_sort hapart
  have hperm : (sort list).Perm list := List.mergeSort_perm ..
  obtain ⟨first, points, hcons⟩ : ∃ first points, sort list = first :: points := by
    refine List.exists_cons_of_ne_nil fun hnil => ?_
    have hlength' := hperm.length_eq
    rw [hnil, List.length_nil] at hlength'
    omega
  rw [hcons] at hsorted hperm
  have hpoints : points ≠ [] := by
    rintro rfl
    have hlength' := hperm.length_eq
    rw [List.length_singleton] at hlength'
    omega
  -- The lower hull.
  obtain ⟨last, mid, hlast, hlower, hchain⟩ := lowerLoop_start sweep_lexCone hsorted hpoints
  have hlowerPerm := lowerLoop_perm points.length points [first]
  rw [hlower] at hlowerPerm
  obtain ⟨left, hleft⟩ : ∃ left, (lowerLoop points.length points [first]).1 = left := ⟨_, rfl⟩
  rw [hleft] at hlowerPerm
  have hordered : ∀ p ∈ list, Precedes lexCone first p ∧ Precedes lexCone p last := by
    intro p hp
    rw [← hperm.mem_iff] at hp
    refine ⟨?_, precedes_getLast sweep_lexCone hsorted hlast p hp⟩
    rcases List.mem_cons.mp hp with rfl | hp
    · exact sweep_lexCone.refl _
    · exact List.rel_of_pairwise_cons hsorted hp
  have hmem {p : Point K} : p ∈ list ↔ p ∈ left ∨ p = last ∨ p ∈ mid ∨ p = first := by
    rw [← hperm.mem_iff, ← List.perm_append_singleton first points |>.mem_iff, ← hlowerPerm.mem_iff]
    simp only [List.mem_append, List.mem_cons, List.not_mem_nil, or_false]
  -- The upper hull, over what the first pass leaves.
  have hleftPerm : (sort left).Perm left := List.mergeSort_perm ..
  have hback : (last :: (first :: sort left).reverse).Pairwise
      (Precedes (lexCone.comap (-LinearMap.id))) := by
    have hapart' : AbscissasApart left := fun a ha b hb =>
      hapart a (hmem.mpr (.inl ha)) b (hmem.mpr (.inl hb))
    rw [← List.reverse_concat, List.pairwise_reverse]
    refine List.Pairwise.imp (fun hbefore => behind_comap_neg.mpr hbefore) ?_
    refine List.pairwise_append.mpr ⟨List.pairwise_cons.mpr ⟨fun p hp => ?_,
      pairwise_sort hapart'⟩, List.pairwise_singleton .., fun p hp q hq => ?_⟩
    · exact (hordered p (hmem.mpr (.inl (hleftPerm.mem_iff.mp hp)))).1
    · rw [List.mem_singleton.mp hq]
      rcases List.mem_cons.mp hp with rfl | hp
      · exact (hordered last (hmem.mpr (.inr (.inl rfl)))).1
      · exact (hordered p (hmem.mpr (.inl (hleftPerm.mem_iff.mp hp)))).2
  obtain ⟨last', upper, hlast', hupper, hback⟩ :=
    lowerLoop_start sweep_lexCone.comap_neg hback (by simp)
  obtain rfl : first = last' := by
    rw [List.reverse_cons, ← List.cons_append, List.getLast?_concat, Option.some_inj] at hlast'
    exact hlast'
  have hupperPerm := lowerLoop_perm (first :: sort left).reverse.length (first :: sort left).reverse
    [last]
  rw [hupper] at hupperPerm
  obtain ⟨rest, hrest⟩ : ∃ rest, (lowerLoop (first :: sort left).reverse.length
      (first :: sort left).reverse [last]).1 = rest := ⟨_, rfl⟩
  rw [hrest] at hupperPerm
  simp only [List.map_cons, List.map_append, List.map_nil] at hchain hback
  refine ⟨first, last, mid, upper, rest.reverse, ⟨?_, ?_, ?_, hordered⟩, ?_⟩
  · rw [List.perm_iff_count] at hperm hlowerPerm hleftPerm hupperPerm ⊢
    intro p
    have hcount := hperm p
    have hlowerCount := hlowerPerm p
    have hleftCount := hleftPerm p
    have hupperCount := hupperPerm p
    simp only [List.count_append, List.count_cons, List.count_reverse, List.count_nil,
      List.reverse_cons] at hcount hlowerCount hleftCount hupperCount ⊢
    omega
  · simp only [List.map_cons, List.map_append, List.map_nil]
    refine hchain.of_pairwise fun q hq => .inl ?_
    obtain ⟨p, hp, rfl⟩ := List.mem_map.mp hq
    exact List.mem_map_of_mem (hperm.mem_iff.mpr hp)
  · simp only [List.map_cons, List.map_append, List.map_nil]
    refine hback.of_pairwise fun q hq => ?_
    obtain ⟨p, hp, rfl⟩ := List.mem_map.mp hq
    by_cases hmid : p ∈ mid
    · exact .inr (hchain.across_back sweep_lexCone hback (List.mem_map_of_mem hmid))
    · have hmet : p ∈ last :: (first :: sort left).reverse := by
        have hcases := hmem.mp hp
        simp only [List.mem_cons, List.mem_reverse, hleftPerm.mem_iff]
        tauto
      exact .inl (List.mem_map_of_mem hmet)
  · unfold convexHullImpl
    rw [hcons, formLowerHull_cons]
    dsimp only
    rw [hlower, hleft, ← List.cons_append, List.getLast?_concat, List.dropLast_concat,
      Option.toList_some, List.singleton_append, formUpperHull_cons, ← List.length_reverse, hrest,
      hupper]
    dsimp only
    rw [List.cons_append, List.head?_cons, List.tail_cons]
    refine Prod.ext (by simp) ?_
    simp only [List.length_cons, List.length_append, List.length_nil, List.length_reverse]
    omega

def positions (list : List (Point K)) : Set (K × K) :=
  {q | q ∈ list.map position}

structure HullInFront (points hulled : List (Point K)) (count : ℕ) : Prop where
  perm : hulled.Perm points
  vertices : positions (hulled.take count) = (convexHull K (positions points)).extremePoints K
  inside : ∀ p ∈ hulled.drop count, position p ∈ convexHull K (positions (hulled.take count))
  smallest : ∃ first, hulled.head? = some first ∧ 0 < count ∧
    ∀ p ∈ points, first.x < p.x ∨ first.x = p.x ∧ first.y ≤ p.y
  turns : (hulled.take count).Triplewise fun a b c => 0 < pointTurn a b c
  distinct : (∃ a ∈ points, ∃ b ∈ points, ∃ c ∈ points, pointTurn a b c ≠ 0) →
    3 ≤ (hulled.take count).length ∧ (hulled.take count).Nodup

/-- The points of the hull come first, turning left. -/
theorem convexHull_hullInFront (hlength : 3 < list.length) (hapart : AbscissasApart list) :
    HullInFront list (ConvexHull.convexHull list).1 (ConvexHull.convexHull list).2 := by
  obtain ⟨first, last, mid, upper, rest, hchains, heq⟩ :=
    convexHullImpl_chains hapart (by omega : 1 < list.length)
  obtain ⟨hperm, hchain, hback, hordered⟩ := hchains
  have hfirst : ∀ q ∈ list.map position, Behind lexCone (position first) q := by
    intro q hq
    obtain ⟨p, hp, rfl⟩ := List.mem_map.mp hq
    exact (hordered p hp).1
  have hlast : ∀ q ∈ list.map position, Behind lexCone q (position last) := by
    intro q hq
    obtain ⟨p, hp, rfl⟩ := List.mem_map.mp hq
    exact (hordered p hp).2
  have hpositions : (first :: (mid.reverse ++ last :: upper.reverse)).map position =
      position first :: ((mid.map position).reverse ++
        position last :: (upper.map position).reverse) := by
    simp
  simp only [List.map_cons, List.map_append, List.map_nil] at hchain hback
  rw [ConvexHull.convexHull, if_neg (by omega), heq]
  dsimp only
  have hturns := triplewise_polygon sweep_lexCone hchain hback
  rw [← hpositions, List.triplewise_map] at hturns
  have htake : (first :: (mid.reverse ++ last :: upper.reverse) ++ rest).take
      (first :: (mid.reverse ++ last :: upper.reverse)).length =
      first :: (mid.reverse ++ last :: upper.reverse) := List.take_left
  refine ⟨hperm, ?_, fun p hp => ?_, ⟨first, rfl, Nat.succ_pos _, fun p hp => ?_⟩,
    htake.symm ▸ hturns, ?_⟩
  · rw [htake, positions, hpositions]
    refine extremePoints_polygon sweep_lexCone hchain hback (fun v hv => ?_) hfirst hlast
    rw [← hpositions] at hv
    obtain ⟨p, hp, rfl⟩ := List.mem_map.mp hv
    exact List.mem_map_of_mem (hperm.mem_iff.mp (List.mem_append_left _ hp))
  · rw [List.drop_left] at hp
    rw [htake, positions, hpositions]
    exact mem_convexHull_polygon sweep_lexCone hchain hback hfirst hlast
      (List.mem_map_of_mem (hperm.mem_iff.mp (List.mem_append_right _ hp)))
  · exact precedes_lexCone.mp (hordered p hp).1
  · rintro ⟨a, ha, b, hb, c, hc, hturn⟩
    rw [htake]
    have hthree : 3 ≤ (first :: (mid.reverse ++ last :: upper.reverse)).length := by
      by_contra hshort
      simp only [List.length_cons, List.length_append, List.length_reverse] at hshort
      obtain rfl : mid = [] := List.eq_nil_of_length_eq_zero (by omega)
      obtain rfl : upper = [] := List.eq_nil_of_length_eq_zero (by omega)
      exact hturn (turn_eq_zero_of_edges sweep_lexCone hchain hback hfirst hlast
        (List.mem_map_of_mem ha) (List.mem_map_of_mem hb) (List.mem_map_of_mem hc))
    refine ⟨hthree, .of_map position (nodup_of_triplewise (List.triplewise_map.mpr hturns) ?_)⟩
    rwa [List.length_map]

/-- A triangle with a point on an edge, one inside and a vertex twice. -/
theorem convexHull_triangle :
    HullInFront [(⟨2, 0⟩ : Point ℚ), ⟨0, 0⟩, ⟨1, 1⟩, ⟨0, 4⟩, ⟨4, 0⟩, ⟨0, 0⟩]
      (ConvexHull.convexHull [(⟨2, 0⟩ : Point ℚ), ⟨0, 0⟩, ⟨1, 1⟩, ⟨0, 4⟩, ⟨4, 0⟩, ⟨0, 0⟩]).1
      (ConvexHull.convexHull [(⟨2, 0⟩ : Point ℚ), ⟨0, 0⟩, ⟨1, 1⟩, ⟨0, 4⟩, ⟨4, 0⟩, ⟨0, 0⟩]).2 := by
  refine convexHull_hullInFront (by decide) ?_
  unfold AbscissasApart
  decide +kernel

end AutowareUniverse.Common.Geometry
