import AutowareUniverse.Library.PlaneVectors
import Mathlib.Analysis.Convex.Combination
import Mathlib.Analysis.Convex.Extreme
import Mathlib.Data.List.Triplewise

/-!
# Convex chains

A chain of points in the order of a sweep that turns left at each point and has a set of points
on its left, as the sweep for a convex hull builds it on a stack.  Points are taken off the
stack and put on it; two chains from both ends close to a convex polygon.
-/

namespace AutowareUniverse.Library.ConvexChains

open Library.PlaneTurns

variable {K : Type} [Field K] [LinearOrder K]

/-- The chain, held from its last point, turns left and has the points seen on its left. -/
structure Supports (C : ConvexCone K (K × K)) (seen chain : List (K × K)) : Prop where
  ordered : chain.Pairwise fun b a => Behind C a b
  turns : chain.Triplewise fun c b a => 0 < turn a b c
  left : chain.IsChain fun b a => ∀ q ∈ seen, 0 ≤ turn a b q

variable [IsStrictOrderedRing K] {C : ConvexCone K (K × K)} {seen chain : List (K × K)}
  {p t c : K × K}

theorem Supports.pairwise_turn (hsweep : Sweep C) (hchain : Supports C seen (t :: chain))
    (hbehind : Behind C t p) (hturn : ∀ s ∈ chain.head?, 0 < turn s t p) :
    (t :: chain).Pairwise fun b a => 0 < turn a b p := by
  cases chain with
  | nil => exact List.pairwise_singleton ..
  | cons s chain =>
    have hordered := List.pairwise_cons.mp hchain.ordered
    have hturns := List.triplewise_cons.mp hchain.turns
    have hlast : 0 < turn s t p := hturn s rfl
    have htop : ∀ a ∈ s :: chain, 0 < turn a t p := by
      intro a hmem
      rcases List.mem_cons.mp hmem with rfl | hmem
      · exact hlast
      · have hbefore := List.rel_of_pairwise_cons hturns.1 hmem
        exact (hsweep.turn_trans (List.rel_of_pairwise_cons hordered.2 hmem)
          (hordered.1 s List.mem_cons_self) hbehind hbefore hlast).2
    refine List.pairwise_cons.mpr ⟨htop, ?_⟩
    refine (hordered.2.and hturns.1).imp_of_mem fun hb _ hboth => ?_
    exact (hsweep.turn_trans hboth.1 (hordered.1 _ hb) hbehind hboth.2 (htop _ hb)).1

/-- A point is put on a chain. -/
theorem Supports.push (hsweep : Sweep C) (hchain : Supports C seen (t :: chain))
    (hfirst : chain = [] → ∀ q ∈ seen, Behind C t q) (hbehind : Behind C t p)
    (hleft : ∀ q ∈ seen, Behind C t q → 0 ≤ turn t p q)
    (hturn : ∀ s ∈ chain.head?, 0 < turn s t p) : Supports C (p :: seen) (p :: t :: chain) := by
  have hpairs := hchain.pairwise_turn hsweep hbehind hturn
  refine ⟨?_, List.triplewise_cons.mpr ⟨hpairs, hchain.turns⟩, ?_⟩
  · refine List.pairwise_cons.mpr ⟨fun a hmem => ?_, hchain.ordered⟩
    rcases List.mem_cons.mp hmem with rfl | hmem
    · exact hbehind
    · exact (List.rel_of_pairwise_cons hchain.ordered hmem).trans hbehind
  · rw [List.isChain_cons_cons]
    constructor
    · intro q hq
      rcases List.mem_cons.mp hq with rfl | hq
      · rw [turn_self_right]
      rcases hsweep.total_behind t q with hahead | hbefore
      · exact hleft q hq hahead
      cases chain with
      | nil => rw [hsweep.antisymm hbefore (hfirst rfl q hq), turn_self_outer]
      | cons s chain =>
        have hedge := (List.isChain_cons_cons.mp hchain.left).1
        have horder := List.rel_of_pairwise_cons hchain.ordered List.mem_cons_self
        exact hsweep.turn_push horder hbefore hbehind (hedge q hq) (hturn s rfl)
    · have hboth : (t :: chain).IsChain fun b a =>
          (∀ q ∈ seen, 0 ≤ turn a b q) ∧ 0 < turn a b p := by
        rw [List.isChain_iff_getElem]
        exact fun i hi => ⟨hchain.left.getElem i hi, hpairs.isChain.getElem i hi⟩
      refine hboth.imp fun b a hedge q hq => ?_
      rcases List.mem_cons.mp hq with rfl | hq
      · exact hedge.2.le
      · exact hedge.1 q hq

omit [IsStrictOrderedRing K] in
/-- A point is taken off a chain. -/
theorem Supports.pop (hchain : Supports C seen (c :: t :: chain)) : Supports C seen (t :: chain) :=
  ⟨(List.pairwise_cons.mp hchain.ordered).2, (List.triplewise_cons.mp hchain.turns).2,
    (List.isChain_cons_cons.mp hchain.left).2⟩

theorem Supports.pop_left (hsweep : Sweep C) (hchain : Supports C seen (c :: t :: chain))
    (hbehind : Behind C c p) (hturn : turn t c p ≤ 0)
    (hleft : ∀ q ∈ seen, Behind C c q → 0 ≤ turn c p q) :
    ∀ q ∈ seen, Behind C t q → 0 ≤ turn t p q := by
  intro q hq hahead
  by_cases heq : t = c
  · subst heq
    exact hleft q hq hahead
  · have hedge := (List.isChain_cons_cons.mp hchain.left).1
    have horder : Behind C t c := List.rel_of_pairwise_cons hchain.ordered List.mem_cons_self
    exact hsweep.turn_pop horder (horder.trans hbehind) hahead heq (hedge q hq) hturn

section

variable {A : Set (K × K)} {a b q : K × K}

theorem mem_convexHull_triangle (ha : a ∈ A) (hb : b ∈ A) (hc : c ∈ A) (hturn : 0 < turn a b c)
    (hab : 0 ≤ turn a b q) (hbc : 0 ≤ turn b c q) (hca : 0 ≤ turn c a q) :
    q ∈ convexHull K A := by
  have hsum : turn b c q + turn c a q + turn a b q = turn a b c := by
    simp only [turn, cross, Prod.fst_sub, Prod.snd_sub]
    ring
  have hfst : turn b c q * a.1 + turn c a q * b.1 + turn a b q * c.1 = turn a b c * q.1 := by
    simp only [turn, cross, Prod.fst_sub, Prod.snd_sub]
    ring
  have hsnd : turn b c q * a.2 + turn c a q * b.2 + turn a b q * c.2 = turn a b c * q.2 := by
    simp only [turn, cross, Prod.fst_sub, Prod.snd_sub]
    ring
  have hmem := (convex_convexHull K A).sum_mem (t := Finset.univ)
    (w := ![turn b c q / turn a b c, turn c a q / turn a b c, turn a b q / turn a b c])
    (z := ![a, b, c]) ?_ ?_ ?_
  · have hne := hturn.ne'
    convert hmem
    rw [Fin.sum_univ_three]
    ext
    · simp only [Matrix.cons_val, Prod.fst_add, Prod.smul_fst, smul_eq_mul]
      field_simp
      linarith
    · simp only [Matrix.cons_val, Prod.snd_add, Prod.smul_snd, smul_eq_mul]
      field_simp
      linarith
  · intro i _
    fin_cases i
    · exact div_nonneg hbc hturn.le
    · exact div_nonneg hca hturn.le
    · exact div_nonneg hab hturn.le
  · rw [Fin.sum_univ_three]
    simp only [Matrix.cons_val]
    rw [← add_div, ← add_div, hsum, div_self hturn.ne']
  · intro i _
    fin_cases i
    · exact subset_convexHull K A ha
    · exact subset_convexHull K A hb
    · exact subset_convexHull K A hc

theorem mem_convexHull_between (hsweep : Sweep C) (ha : a ∈ A) (hb : b ∈ A) (haq : Behind C a q)
    (hqb : Behind C q b) (hline : turn a b q = 0) : q ∈ convexHull K A := by
  by_cases heq : a = b
  · subst heq
    rw [hsweep.antisymm hqb haq]
    exact subset_convexHull K A ha
  have hne : b - a ≠ 0 := sub_ne_zero.mpr fun hba => heq hba.symm
  have hab : b - a ∈ C := haq.trans hqb
  obtain ⟨ratio, hratio⟩ := exists_smul_of_cross_eq_zero hne hline
  have hlow : 0 ≤ ratio := by
    refine hsweep.nonneg_of_smul_mem hab hne ?_
    rw [← hratio]
    exact haq
  have hhigh : 0 ≤ 1 - ratio := by
    refine hsweep.nonneg_of_smul_mem hab hne ?_
    rw [sub_smul, one_smul, ← hratio, sub_sub_sub_cancel_right]
    exact hqb
  rw [← add_sub_cancel a q, hratio]
  exact (convex_convexHull K A).add_smul_sub_mem (subset_convexHull K A ha)
    (subset_convexHull K A hb) ⟨hlow, sub_nonneg.mp hhigh⟩

theorem mem_convexHull_fan {rest : List (K × K)} (hp : p ∈ A) (hA : ∀ a ∈ t :: rest, a ∈ A)
    (hturns : (t :: rest).Pairwise fun b a => 0 < turn a b p)
    (hleft : (t :: rest).IsChain fun b a => 0 ≤ turn a b q) (hstart : 0 ≤ turn t p q)
    (hne : rest ≠ []) (hend : ∀ first ∈ (t :: rest).getLast?, turn first p q ≤ 0) :
    q ∈ convexHull K A := by
  induction rest generalizing t with
  | nil => exact absurd rfl hne
  | cons s rest ih =>
    have hedge := List.isChain_cons_cons.mp hleft
    by_cases hright : turn s p q ≤ 0
    · have hturn : 0 < turn s t p := List.rel_of_pairwise_cons hturns List.mem_cons_self
      have hlast : 0 ≤ turn p s q := by
        rw [turn_flip]
        exact neg_nonneg.mpr hright
      exact mem_convexHull_triangle (hA s (by simp)) (hA t (by simp)) hp hturn hedge.1 hstart hlast
    · cases rest with
      | nil => exact absurd (hend s rfl) hright
      | cons r rest =>
        exact ih (fun a ha => hA a (List.mem_cons_of_mem _ ha))
          (List.pairwise_cons.mp hturns).2 hedge.2 (not_le.mp hright).le (List.cons_ne_nil _ _)
          (by simpa using hend)

theorem Supports.mem_convexHull (hsweep : Sweep C) {first last : K × K} {mid : List (K × K)}
    (hchain : Supports C seen (last :: (mid ++ [first]))) (hq : q ∈ seen)
    (hfirst : Behind C first q) (hlast : Behind C q last) (hchord : turn first last q ≤ 0)
    (hA : ∀ a ∈ last :: (mid ++ [first]), a ∈ A) : q ∈ convexHull K A := by
  have hp : last ∈ A := hA last List.mem_cons_self
  cases mid with
  | nil =>
    have hedge := (List.isChain_cons_cons.mp hchain.left).1 q hq
    exact mem_convexHull_between hsweep (hA first (by simp)) hp hfirst hlast
      (le_antisymm hchord hedge)
  | cons t mid =>
    have hedges := List.isChain_cons_cons.mp hchain.left
    refine mem_convexHull_fan hp (fun a ha => hA a (List.mem_cons_of_mem _ ha))
      (List.triplewise_cons.mp hchain.turns).1 (hedges.2.imp fun b a hedge => hedge q hq)
      (hedges.1 q hq) (by simp) fun last' hmem => ?_
    have hlast' : last' ∈ ((t :: mid) ++ [first]).getLast? := hmem
    rw [List.getLast?_concat, Option.mem_some_iff] at hlast'
    exact hlast' ▸ hchord

omit [IsStrictOrderedRing K] in
theorem mem_extremePoints_of_salient (hsalient : C.Salient) (ha : a ∈ A)
    (hall : ∀ q ∈ A, q - a ∈ C) : a ∈ (convexHull K A).extremePoints K := by
  have hhull : ∀ q ∈ convexHull K A, q - a ∈ C := by
    refine fun q hq => convexHull_min (t := {q | q - a ∈ C}) hall ?_ hq
    refine convex_iff_forall_pos.mpr fun u hu v hv x y hx hy hsum => ?_
    have hmem := C.add_mem (C.smul_mem hx hu) (C.smul_mem hy hv)
    have hmix : x • (u - a) + y • (v - a) = x • u + y • v - a := by
      rw [smul_sub, smul_sub, sub_add_sub_comm, ← add_smul, hsum, one_smul]
    rwa [hmix] at hmem
  refine ⟨subset_convexHull K A ha, fun u hu v hv hopen => ?_⟩
  obtain ⟨x, y, hx, hy, hsum, hmix⟩ := hopen
  have hzero : x • (u - a) + y • (v - a) = 0 := by
    rw [smul_sub, smul_sub, sub_add_sub_comm, ← add_smul, hsum, one_smul, hmix, sub_self]
  have hfirst := C.smul_mem hx (hhull u hu)
  have hsecond := C.smul_mem hy (hhull v hv)
  rw [← neg_eq_of_add_eq_zero_right hzero] at hsecond
  by_contra hne
  exact hsalient _ hfirst (smul_ne_zero hx.ne' (sub_ne_zero.mpr hne)) hsecond

/-- The cone between two edges that turn left. -/
def cornerCone (u v : K × K) : ConvexCone K (K × K) where
  carrier := {w | 0 ≤ cross u w ∧ 0 ≤ cross v w}
  smul_mem' := by
    rintro ratio hratio w ⟨hu, hv⟩
    rw [Set.mem_ofPred_eq, cross_smul_right, cross_smul_right]
    exact ⟨mul_nonneg hratio.le hu, mul_nonneg hratio.le hv⟩
  add_mem' := by
    rintro w ⟨hu, hv⟩ w' ⟨hu', hv'⟩
    rw [Set.mem_ofPred_eq, cross_add_right, cross_add_right]
    exact ⟨add_nonneg hu hu', add_nonneg hv hv'⟩

theorem salient_cornerCone {u v : K × K} (hturn : 0 < cross u v) : (cornerCone u v).Salient := by
  rintro w ⟨hu, hv⟩ hne ⟨hu', hv'⟩
  rw [cross_neg_right, neg_nonneg] at hu' hv'
  have hmix := cross_smul u v w
  rw [le_antisymm hu' hu, le_antisymm hv' hv, zero_smul, zero_smul, add_zero, eq_comm,
    smul_eq_zero] at hmix
  exact hmix.elim hturn.ne' hne

theorem mem_extremePoints_corner (ha : a ∈ A) (hturn : 0 < turn p a c)
    (hfirst : ∀ q ∈ A, 0 ≤ turn p a q) (hsecond : ∀ q ∈ A, 0 ≤ turn a c q) :
    a ∈ (convexHull K A).extremePoints K := by
  have hcorner : 0 < cross (a - p) (c - a) := by
    simp only [turn, cross, Prod.fst_sub, Prod.snd_sub] at hturn ⊢
    linarith
  refine mem_extremePoints_of_salient (salient_cornerCone hcorner) ha fun q hq => ⟨?_, ?_⟩
  · have hleft := hfirst q hq
    simp only [turn, cross, Prod.fst_sub, Prod.snd_sub] at hleft ⊢
    linarith
  · exact hsecond q hq

theorem getElem_of_mem_mid {P : Type} {first last v : P} {mid : List P} (hv : v ∈ mid) :
    ∃ i, ∃ h : i + 2 < (last :: (mid ++ [first])).length,
      (last :: (mid ++ [first]))[i + 1] = v := by
  obtain ⟨i, hi, rfl⟩ := List.getElem_of_mem hv
  refine ⟨i, by simpa using hi, ?_⟩
  rw [List.getElem_cons_succ, List.getElem_append_left hi]

theorem Supports.mem_extremePoints {first last : K × K} {mid : List (K × K)}
    (hchain : Supports C seen (last :: (mid ++ [first]))) (hA : ∀ q ∈ A, q ∈ seen) {v : K × K}
    (hv : v ∈ mid) (hvA : v ∈ A) : v ∈ (convexHull K A).extremePoints K := by
  obtain ⟨i, hi, rfl⟩ := @getElem_of_mem_mid _ first last v mid hv
  have hturn := List.triplewise_iff_getElem.mp hchain.turns i (i + 1) (i + 2) (by omega) (by omega) hi
  exact mem_extremePoints_corner hvA hturn
    (fun q hq => hchain.left.getElem (i + 1) (by omega) q (hA q hq))
    fun q hq => hchain.left.getElem i (by omega) q (hA q hq)

end

/-! ## Two chains -/

variable {first last : K × K} {mid upper : List (K × K)}

/-- A chain has the points left of its chord on its left. -/
theorem Supports.pairwise_across (hsweep : Sweep C)
    (hchain : Supports C seen (last :: (mid ++ [first]))) {q : K × K} (hfirst : Behind C first q)
    (hlast : Behind C q last) (hchord : 0 < turn first last q) :
    (last :: (mid ++ [first])).Pairwise fun b a => 0 < turn a b q := by
  obtain ⟨hbehind, hordered⟩ := List.pairwise_cons.mp hchain.ordered
  obtain ⟨hlastTurns, hturns⟩ := List.triplewise_cons.mp hchain.turns
  obtain ⟨hmidOrdered, -, hahead⟩ := List.pairwise_append.mp hordered
  obtain ⟨hmidLast, -, hchordTurns⟩ := List.pairwise_append.mp hlastTurns
  have hmidFirst := (List.triplewise_append.mp hturns).2.2.2 first List.mem_cons_self
  have hchordOrder : Behind C first last := hbehind first (by simp)
  have hne {a b c : K × K} (hturn : 0 < turn a b c) : a ≠ b := by
    rintro rfl
    rw [turn_self_left] at hturn
    exact lt_irrefl _ hturn
  have hne' {a b c : K × K} (hturn : 0 < turn a b c) : b ≠ c := by
    rintro rfl
    rw [turn_self_right] at hturn
    exact lt_irrefl _ hturn
  refine List.pairwise_cons.mpr ⟨fun a hmem => ?_, List.pairwise_append.mpr
    ⟨?_, List.pairwise_singleton .., fun b hb a hfirstMem => ?_⟩⟩
  · rcases List.mem_append.mp hmem with ha | ha
    · -- An edge to the end of the chain.
      have hturn := hchordTurns a ha first List.mem_cons_self
      exact hsweep.turn_across (hahead a ha first List.mem_cons_self) (hbehind a hmem)
        (hsweep.refl last) hfirst hlast (hne' hturn) hturn.le (turn_self_right a last).ge hchord
    · rw [List.mem_singleton.mp ha]
      exact hchord
  · refine ((hmidOrdered.and hmidLast).and hmidFirst).imp_of_mem fun {b a} hb ha hpair => ?_
    obtain ⟨⟨hab, hend⟩, hstart⟩ := hpair
    exact hsweep.turn_across (hahead a ha first List.mem_cons_self) hab
      (hbehind b (List.mem_append_left _ hb)) hfirst hlast (hne hend) hstart.le hend.le hchord
  · -- An edge from the start of the chain.
    rw [List.mem_singleton.mp hfirstMem]
    have hturn := hchordTurns b hb first List.mem_cons_self
    exact hsweep.turn_across (hsweep.refl first) (hahead b hb first List.mem_cons_self)
      (hbehind b (List.mem_append_left _ hb)) hfirst hlast (hne hturn)
      (turn_self_left first b).ge hturn.le hchord

variable {points : List (K × K)}

omit [IsStrictOrderedRing K] in
theorem Supports.of_pairwise (hchain : Supports C seen chain)
    (hpoints : ∀ q ∈ points, q ∈ seen ∨ chain.Pairwise fun b a => 0 < turn a b q) :
    Supports C points chain := by
  refine ⟨hchain.ordered, hchain.turns, List.isChain_iff_getElem.mpr fun i hi q hq => ?_⟩
  rcases hpoints q hq with hseen | hpairs
  · exact hchain.left.getElem i hi q hseen
  · exact (hpairs.isChain.getElem i hi).le

theorem Supports.across_back (hsweep : Sweep C)
    (hchain : Supports C seen (last :: (mid ++ [first])))
    (hback : Supports (C.comap (-LinearMap.id)) points (first :: (upper ++ [last]))) {q : K × K}
    (hq : q ∈ mid) : (first :: (upper ++ [last])).Pairwise fun b a => 0 < turn a b q := by
  obtain ⟨hbehind, hordered⟩ := List.pairwise_cons.mp hchain.ordered
  have hchord := (List.pairwise_append.mp (List.triplewise_cons.mp hchain.turns).1).2.2 q hq first
    List.mem_cons_self
  refine hback.pairwise_across hsweep.comap_neg ?_ ?_ ?_
  · rw [behind_comap_neg]
    exact hbehind q (List.mem_append_left _ hq)
  · rw [behind_comap_neg]
    exact (List.pairwise_append.mp hordered).2.2 q hq first List.mem_cons_self
  · rwa [turn_rotate, turn_rotate]

theorem triplewise_polygon (hsweep : Sweep C) (hchain : Supports C seen (last :: (mid ++ [first])))
    (hback : Supports (C.comap (-LinearMap.id)) points (first :: (upper ++ [last]))) :
    (first :: (mid.reverse ++ last :: upper.reverse)).Triplewise fun a b c => 0 < turn a b c := by
  have hlist : first :: (mid.reverse ++ last :: upper.reverse) =
      (last :: (mid ++ [first])).reverse ++ upper.reverse := by
    simp
  obtain ⟨hbackFirst, hbackTurns⟩ := List.triplewise_cons.mp hback.turns
  obtain ⟨hupperTurns, -, -, hbackLast⟩ := List.triplewise_append.mp hbackTurns
  obtain ⟨hupperFirst, -, hbackChord⟩ := List.pairwise_append.mp hbackFirst
  rw [hlist, List.triplewise_append, List.triplewise_reverse, List.triplewise_reverse]
  refine ⟨hchain.turns, hupperTurns, fun a ha => ?_, fun u hu => ?_⟩
  · rw [List.pairwise_reverse]
    rw [List.mem_reverse, List.mem_cons, List.mem_append, List.mem_singleton] at ha
    rcases ha with rfl | ha | rfl
    · exact hbackLast a List.mem_cons_self
    · have hpairs := (List.pairwise_cons.mp (hchain.across_back hsweep hback ha)).2
      refine (List.pairwise_append.mp hpairs).1.imp fun hturn => ?_
      rwa [← turn_rotate]
    · refine hupperFirst.imp fun hturn => ?_
      rwa [← turn_rotate]
  · rw [List.pairwise_reverse]
    rw [List.mem_reverse] at hu
    obtain ⟨hbehind, hordered⟩ := List.pairwise_cons.mp hback.ordered
    refine hchain.pairwise_across hsweep ?_ ?_ ?_
    · exact behind_comap_neg.mp (hbehind u (List.mem_append_left _ hu))
    · exact behind_comap_neg.mp
        ((List.pairwise_append.mp hordered).2.2 u hu last List.mem_cons_self)
    · rw [turn_rotate, turn_rotate]
      exact hbackChord u hu last List.mem_cons_self

theorem mem_convexHull_polygon (hsweep : Sweep C)
    (hchain : Supports C points (last :: (mid ++ [first])))
    (hback : Supports (C.comap (-LinearMap.id)) points (first :: (upper ++ [last])))
    (hfirst : ∀ q ∈ points, Behind C first q) (hlast : ∀ q ∈ points, Behind C q last)
    {q : K × K} (hq : q ∈ points) :
    q ∈ convexHull K {v | v ∈ first :: (mid.reverse ++ last :: upper.reverse)} := by
  rcases le_total (turn first last q) 0 with hright | hleft
  · refine hchain.mem_convexHull hsweep hq (hfirst q hq) (hlast q hq) hright fun v hv => ?_
    simp only [List.mem_cons, List.mem_append, List.not_mem_nil, or_false] at hv
    simp only [Set.mem_ofPred_eq, List.mem_cons, List.mem_append, List.mem_reverse]
    tauto
  · refine hback.mem_convexHull hsweep.comap_neg hq (behind_comap_neg.mpr (hlast q hq))
      (behind_comap_neg.mpr (hfirst q hq)) ?_ fun v hv => ?_
    · rw [turn_flip]
      exact neg_nonpos.mpr hleft
    · simp only [List.mem_cons, List.mem_append, List.not_mem_nil, or_false] at hv
      simp only [Set.mem_ofPred_eq, List.mem_cons, List.mem_append, List.mem_reverse]
      tauto

omit [IsStrictOrderedRing K] in
/-- Three points in order that turn left are three different points. -/
theorem nodup_of_triplewise (hturns : chain.Triplewise fun a b c => 0 < turn a b c)
    (hlength : 3 ≤ chain.length) : chain.Nodup := by
  rw [List.triplewise_iff_getElem] at hturns
  refine List.pairwise_iff_getElem.mpr fun i j hi hj hij heq => ?_
  by_cases hstart : 0 < i
  · have hturn := hturns 0 i j hstart hij hj
    rw [heq, turn_self_right] at hturn
    exact lt_irrefl _ hturn
  by_cases hend : j + 1 < chain.length
  · have hturn := hturns i j (j + 1) hij (by omega) hend
    rw [heq, turn_self_left] at hturn
    exact lt_irrefl _ hturn
  · have hturn := hturns i (i + 1) j (by omega) (by omega) hj
    rw [heq, turn_self_outer] at hturn
    exact lt_irrefl _ hturn

/-- Two chains without corners have all points on their line. -/
theorem turn_eq_zero_of_edges (hsweep : Sweep C) (hchain : Supports C points [last, first])
    (hback : Supports (C.comap (-LinearMap.id)) points [first, last])
    (hfirst : ∀ q ∈ points, Behind C first q) (hlast : ∀ q ∈ points, Behind C q last)
    {a b c : K × K} (ha : a ∈ points) (hb : b ∈ points) (hc : c ∈ points) : turn a b c = 0 := by
  by_cases heq : last - first = 0
  · rw [sub_eq_zero] at heq
    have hsame : ∀ q ∈ points, q = first := fun q hq =>
      hsweep.antisymm (heq ▸ hlast q hq) (hfirst q hq)
    rw [hsame a ha, hsame b hb, turn_self_left]
  · have hline : ∀ q ∈ points, cross (last - first) (q - first) = 0 := by
      intro q hq
      have hleft := (List.isChain_cons_cons.mp hchain.left).1 q hq
      have hright := (List.isChain_cons_cons.mp hback.left).1 q hq
      rw [turn_flip] at hright
      exact le_antisymm (neg_nonneg.mp hright) hleft
    have hdifference : ∀ p ∈ points, ∀ q ∈ points, cross (last - first) (q - p) = 0 := by
      intro p hp q hq
      have hsub := hline q hq
      rw [← sub_add_sub_cancel q p first, cross_add_right, hline p hp, add_zero] at hsub
      exact hsub
    have hmix := cross_smul (b - a) (last - first) (c - a)
    have hflip : cross (b - a) (last - first) = -cross (last - first) (b - a) := by
      rw [cross, cross]
      ring
    rw [hflip, hdifference a ha b hb, hdifference a ha c hc, neg_zero, zero_smul, zero_smul,
      add_zero] at hmix
    exact (smul_eq_zero.mp hmix).resolve_right heq

theorem extremePoints_polygon (hsweep : Sweep C)
    (hchain : Supports C points (last :: (mid ++ [first])))
    (hback : Supports (C.comap (-LinearMap.id)) points (first :: (upper ++ [last])))
    (hvertices : ∀ v ∈ first :: (mid.reverse ++ last :: upper.reverse), v ∈ points)
    (hfirst : ∀ q ∈ points, Behind C first q) (hlast : ∀ q ∈ points, Behind C q last) :
    {v | v ∈ first :: (mid.reverse ++ last :: upper.reverse)} =
      (convexHull K {q | q ∈ points}).extremePoints K := by
  apply Set.Subset.antisymm
  · intro v hv
    have hpoint : v ∈ {q | q ∈ points} := hvertices v hv
    simp only [Set.mem_ofPred_eq, List.mem_cons, List.mem_append, List.mem_reverse] at hv
    rcases hv with rfl | hmid | rfl | hupper
    · exact mem_extremePoints_of_salient hsweep.salient hpoint hfirst
    · exact hchain.mem_extremePoints (fun _ hq => hq) hmid hpoint
    · exact mem_extremePoints_of_salient hsweep.comap_neg.salient hpoint fun q hq =>
        behind_comap_neg.mpr (hlast q hq)
    · exact hback.mem_extremePoints (fun _ hq => hq) hupper hpoint
  · have hhull : convexHull K {q | q ∈ points} =
        convexHull K {v | v ∈ first :: (mid.reverse ++ last :: upper.reverse)} := by
      apply Set.Subset.antisymm
      · exact convexHull_min
          (fun q hq => mem_convexHull_polygon hsweep hchain hback hfirst hlast hq)
          (convex_convexHull K _)
      · exact convexHull_mono hvertices
    rw [hhull]
    exact extremePoints_convexHull_subset

end AutowareUniverse.Library.ConvexChains
