import AutowareUniverse.Library.ConvexChains

/-!
# Supporting lines of a convex polygon

A line through a vertex supports a polygon if the polygon is on its left.  Four supporting lines
at right angles turn together until one of them lies along an edge, which it then leaves for the
next vertex.  After as many turns as there are edges each edge has had a line along it: no edge
is turned past, and while the lines have not turned by a right angle they meet different edges.
-/

namespace AutowareUniverse.Library.SupportingLines

open PlaneTurns PlaneVectors

variable {K : Type} [Field K] [LinearOrder K] [IsStrictOrderedRing K]

/-! ## Polygons -/

/-- The vertices of a polygon, all around it, that turns left at any three of them in order. -/
structure ConvexPolygon (n : ℕ) (P : ℕ → K × K) : Prop where
  three : 3 ≤ n
  periodic : ∀ i, P (i % n) = P i
  turns : ∀ i j k, i < j → j < k → k < n → 0 < turn (P i) (P j) (P k)

variable {n : ℕ} {P : ℕ → K × K}

def edge (P : ℕ → K × K) (i : ℕ) : K × K :=
  P (i + 1) - P i

/-- The polygon is left of the line through a vertex. -/
def Supporting (P : ℕ → K × K) (vertex d : K × K) : Prop :=
  ∀ i, 0 ≤ cross d (P i - vertex)

namespace ConvexPolygon

variable (hpolygon : ConvexPolygon n P)

include hpolygon

section
omit [IsStrictOrderedRing K]

theorem pos : 0 < n :=
  lt_of_lt_of_le (by decide) hpolygon.three

theorem edge_mod (i : ℕ) : edge P (i % n) = edge P i := by
  rw [edge, edge, hpolygon.periodic, ← hpolygon.periodic (i % n + 1), Nat.mod_add_mod,
    hpolygon.periodic]

theorem turn_edge_pos {i j : ℕ} (hi : i < n) (hj : j < n) (hne : j ≠ i)
    (hnext : j ≠ (i + 1) % n) : 0 < turn (P i) (P (i + 1)) (P j) := by
  rcases Nat.lt_or_ge (i + 1) n with hlt | hge
  · rw [Nat.mod_eq_of_lt hlt] at hnext
    rcases Nat.lt_or_gt_of_ne hne with hbefore | hafter
    · rw [turn_rotate]
      exact hpolygon.turns j i (i + 1) hbefore (Nat.lt_succ_self i) hlt
    · exact hpolygon.turns i (i + 1) j (Nat.lt_succ_self i) (by omega) hj
  · obtain rfl : n = i + 1 := by omega
    rw [Nat.mod_self] at hnext
    rw [← hpolygon.periodic (i + 1), Nat.mod_self, ← turn_rotate]
    exact hpolygon.turns 0 j i (by omega) (by omega) hi

theorem turn_edge_nonneg (i j : ℕ) : 0 ≤ turn (P i) (P (i + 1)) (P j) := by
  have hmod : 0 ≤ turn (P (i % n)) (P (i % n + 1)) (P (j % n)) := by
    by_cases hfrom : j % n = i % n
    · rw [hfrom, turn_self_outer]
    · by_cases hto : j % n = (i % n + 1) % n
      · rw [hto, ← hpolygon.periodic (i % n + 1), turn_self_right]
      · exact (hpolygon.turn_edge_pos (Nat.mod_lt _ hpolygon.pos)
          (Nat.mod_lt _ hpolygon.pos) hfrom hto).le
  rwa [← hpolygon.periodic (i % n + 1), Nat.mod_add_mod, hpolygon.periodic, hpolygon.periodic,
    hpolygon.periodic] at hmod

theorem supporting_edge (i : ℕ) : Supporting P (P i) (edge P i) :=
  hpolygon.turn_edge_nonneg i

theorem supporting_edge_next (i : ℕ) : Supporting P (P (i + 1)) (edge P i) := by
  intro j
  have hnonneg := hpolygon.turn_edge_nonneg i j
  rw [turn] at hnonneg
  have hdiff : cross (edge P i) (P j - P (i + 1)) = cross (P (i + 1) - P i) (P j - P i) := by
    simp only [edge, cross, Prod.fst_sub, Prod.snd_sub]
    ring
  rwa [hdiff]

theorem edge_ne_zero (i : ℕ) : edge P i ≠ 0 := by
  rw [← hpolygon.edge_mod i]
  have hi : i % n < n := Nat.mod_lt _ hpolygon.pos
  have hthree := hpolygon.three
  generalize i % n = r at hi ⊢
  intro hzero
  rw [edge, sub_eq_zero] at hzero
  -- A vertex that is not on the edge.
  obtain ⟨j, hj, hne, hnext⟩ : ∃ j < n, j ≠ r ∧ j ≠ (r + 1) % n := by
    rcases Nat.lt_or_ge (r + 1) n with hlt | hlast
    · rw [Nat.mod_eq_of_lt hlt]
      rcases Nat.lt_or_ge (r + 2) n with hlt | hge
      · exact ⟨r + 2, hlt, by omega, by omega⟩
      · exact ⟨0, hpolygon.pos, by omega, by omega⟩
    · rw [show r + 1 = n by omega, Nat.mod_self]
      exact ⟨1, by omega, by omega, by omega⟩
  have hpos := hpolygon.turn_edge_pos hi hj hne hnext
  rw [hzero, turn_self_left] at hpos
  exact lt_irrefl _ hpos

/-- The polygon is on no line. -/
theorem not_flat {v d : K × K} (hd : d ≠ 0) : ¬ ∀ i, cross d (P i - v) = 0 := by
  intro hflat
  have hthree := hpolygon.three
  have hturn := hpolygon.turns 0 1 2 (by decide) (by decide) (by omega)
  obtain ⟨a, ha⟩ := exists_smul_of_cross_eq_zero hd (hflat 0)
  obtain ⟨b, hb⟩ := exists_smul_of_cross_eq_zero hd (hflat 1)
  obtain ⟨c, hc⟩ := exists_smul_of_cross_eq_zero hd (hflat 2)
  have hfirst : P 1 - P 0 = (b - a) • d := by
    rw [sub_smul, ← ha, ← hb, sub_sub_sub_cancel_right]
  have hsecond : P 2 - P 0 = (c - a) • d := by
    rw [sub_smul, ← ha, ← hc, sub_sub_sub_cancel_right]
  rw [turn, hfirst, hsecond, cross_smul_left, cross_smul_right, cross_same, mul_zero,
    mul_zero] at hturn
  exact lt_irrefl _ hturn

end

theorem not_between {v u u' : K × K} {i j : ℕ} (hv : v = P j) (hu : Supporting P v u)
    (hu' : Supporting P v u') (hforward : 0 < cross u u') (hpast : 0 < cross u (edge P i)) :
    0 ≤ cross u' (edge P i) := by
  by_contra hbefore
  rw [not_le] at hbefore
  have hbefore' : 0 < cross (edge P i) u' := by
    rw [cross_comm]
    exact neg_pos.mpr hbefore
  -- Both ends of the edge are at the vertex.
  have hend : ∀ q, 0 ≤ cross u (q - v) → 0 ≤ cross u' (q - v) → cross (edge P i) (q - v) ≤ 0 →
      q = v := by
    intro q hleft hleft' hon
    have hcombined : cross u u' * cross (edge P i) (q - v) =
        cross u (edge P i) * cross u' (q - v) + cross (edge P i) u' * cross u (q - v) := by
      simp only [cross]
      ring
    have hsum : cross u u' * cross (edge P i) (q - v) ≤ 0 :=
      mul_nonpos_of_nonneg_of_nonpos hforward.le hon
    have hfirst : 0 ≤ cross u (edge P i) * cross u' (q - v) := mul_nonneg hpast.le hleft'
    have hsecond : 0 ≤ cross (edge P i) u' * cross u (q - v) := mul_nonneg hbefore'.le hleft
    have hzero' : cross u' (q - v) = 0 := by
      have hprod : cross u (edge P i) * cross u' (q - v) = 0 := by linarith
      exact (mul_eq_zero.mp hprod).resolve_left hpast.ne'
    have hzero : cross u (q - v) = 0 := by
      have hprod : cross (edge P i) u' * cross u (q - v) = 0 := by linarith
      exact (mul_eq_zero.mp hprod).resolve_left hbefore'.ne'
    have hne : u ≠ 0 := by
      rintro rfl
      simp [cross] at hforward
    obtain ⟨ratio, hratio⟩ := exists_smul_of_cross_eq_zero hne hzero
    rw [hratio, cross_smul_right, cross_comm, mul_neg, neg_eq_zero, mul_eq_zero] at hzero'
    rcases hzero' with hratio' | hparallel
    · rwa [hratio', zero_smul, sub_eq_zero] at hratio
    · exact absurd hparallel hforward.ne'
  have hleftOf := hpolygon.supporting_edge i j
  have hleftOf' := hpolygon.supporting_edge_next i j
  rw [← hv] at hleftOf hleftOf'
  have hfrom : P i = v := by
    refine hend _ (hu i) (hu' i) ?_
    rw [← neg_sub, cross_neg_right]
    exact neg_nonpos.mpr hleftOf
  have hto : P (i + 1) = v := by
    refine hend _ (hu (i + 1)) (hu' (i + 1)) ?_
    rw [← neg_sub, cross_neg_right]
    exact neg_nonpos.mpr hleftOf'
  exact hpolygon.edge_ne_zero i (by rw [edge, hfrom, hto, sub_self])

end ConvexPolygon

/-! ## A turn -/

/-- The four lines turn by one angle until one of them lies along the edge that leaves its vertex,
and no line is past the edge that leaves its vertex. -/
structure Turn (P : ℕ → K × K) (d : K × K) (heads : Fin 4 → ℕ) (moved : Fin 4)
    (cosTh sinTh : K) : Prop where
  unit : cosTh * cosTh + sinTh * sinTh = 1
  forward : 0 ≤ sinTh
  along : ∃ ratio : K, 0 < ratio ∧ edge P (heads moved) = ratio • side moved (rotated cosTh sinTh d)
  before : ∀ k, 0 ≤ cross (side k (rotated cosTh sinTh d)) (edge P (heads k))

def AllSupporting (P : ℕ → K × K) (d : K × K) (heads : Fin 4 → ℕ) : Prop :=
  ∀ k, Supporting P (P (heads k)) (side k d)

variable {d : K × K} {heads : Fin 4 → ℕ} {moved : Fin 4} {cosTh sinTh : K}

theorem turn_of_largest_cos {mag : Fin 4 → K} (hd : d ≠ 0) (hmag : ∀ k, 0 < mag k ∧
      mag k * mag k = dot (edge P (heads k)) (edge P (heads k)) * dot d d)
    (hall : AllSupporting P d heads)
    (hlargest : ∀ k, dot (side k d) (edge P (heads k)) / mag k ≤
      dot (side moved d) (edge P (heads moved)) / mag moved) :
    Turn P d heads moved (dot (side moved d) (edge P (heads moved)) / mag moved)
      (cross (side moved d) (edge P (heads moved)) / mag moved) := by
  have hunit (k : Fin 4) := cos_sin_unit (u := side k d) (e := edge P (heads k)) (hmag k).1
    (by rw [dot_side, (hmag k).2])
  have hsin (k : Fin 4) : 0 ≤ cross (side k d) (edge P (heads k)) / mag k :=
    div_nonneg (hall k (heads k + 1)) (hmag k).1.le
  refine ⟨hunit moved, hsin moved, ⟨mag moved / dot d d,
    div_pos (hmag moved).1 (dot_self_pos hd), ?_⟩, fun k => ?_⟩
  · have hne := (hmag moved).1.ne'
    have hnorm := (dot_self_pos hd).ne'
    rw [side_rotated]
    rw [← dot_side d d moved] at hnorm ⊢
    generalize side moved d = u at hnorm ⊢
    have hsquares : u.1 * u.1 + u.2 * u.2 = dot u u := rfl
    have hdot : dot u (edge P (heads moved)) =
        u.1 * (edge P (heads moved)).1 + u.2 * (edge P (heads moved)).2 := rfl
    have hcross : cross u (edge P (heads moved)) =
        u.1 * (edge P (heads moved)).2 - u.2 * (edge P (heads moved)).1 := rfl
    ext
    · rw [Prod.smul_fst, rotated, smul_eq_mul]
      field_simp
      linear_combination -(edge P (heads moved)).1 * hsquares - u.1 * hdot + u.2 * hcross
    · rw [Prod.smul_snd, rotated, smul_eq_mul]
      field_simp
      linear_combination -(edge P (heads moved)).2 * hsquares - u.2 * hdot - u.1 * hcross
  · have hle := sin_mul_cos_le (hunit moved) (hunit k) (hsin moved) (hsin k) (hlargest k)
    have hcross : cross (side k d) (edge P (heads k)) =
        cross (side k d) (edge P (heads k)) / mag k * mag k :=
      (div_mul_cancel₀ _ (hmag k).1.ne').symm
    have hdot : dot (side k d) (edge P (heads k)) =
        dot (side k d) (edge P (heads k)) / mag k * mag k :=
      (div_mul_cancel₀ _ (hmag k).1.ne').symm
    rw [side_rotated, cross_rotated, hcross, hdot, ← mul_assoc, ← mul_assoc, ← sub_mul]
    exact mul_nonneg (sub_nonneg.mpr hle) (hmag k).1.le

namespace ConvexPolygon

variable (hpolygon : ConvexPolygon n P)

include hpolygon

theorem edge_ne_neg {u : K × K} {i : ℕ} (hd : u ≠ 0) (hsupport : Supporting P (P i) u)
    {ratio : K} (hratio : ratio < 0) : edge P i ≠ ratio • u := by
  intro hopposite
  refine hpolygon.not_flat (v := P i) hd fun j => le_antisymm ?_ (hsupport j)
  have hleft := hpolygon.supporting_edge i j
  rw [hopposite, cross_smul_left] at hleft
  exact nonpos_of_mul_nonneg_right hleft hratio

theorem cos_eq_one (hd : d ≠ 0) (hall : AllSupporting P d heads)
    (hturn : Turn P d heads moved cosTh sinTh) (hsin : sinTh = 0) : cosTh = 1 := by
  have hunit := hturn.unit
  rw [hsin, mul_zero, add_zero, mul_self_eq_one_iff] at hunit
  refine hunit.resolve_right fun hcos => ?_
  obtain ⟨ratio, hratio, halong⟩ := hturn.along
  refine hpolygon.edge_ne_neg (side_ne_zero hd moved) (hall moved) (neg_neg_iff_pos.mpr hratio) ?_
  rw [halong, side_rotated, hcos, hsin]
  ext
  · simp [rotated]
  · simp [rotated]

theorem allSupporting_turned (hd : d ≠ 0) (hall : AllSupporting P d heads)
    (hturn : Turn P d heads moved cosTh sinTh) :
    AllSupporting P (rotated cosTh sinTh d) heads := by
  intro k
  have hbefore := hturn.before k
  rw [side_rotated] at hbefore ⊢
  have hne := side_ne_zero hd k
  have hsupport := hall k
  have hedge := hpolygon.supporting_edge (heads k)
  generalize side k d = u at hbefore hne hsupport ⊢
  have hto : 0 ≤ cross u (edge P (heads k)) := by
    have hnext := hsupport (heads k + 1)
    rwa [edge]
  rcases lt_or_eq_of_le hto with hpast | halong
  · -- The turned direction is between the direction and the edge.
    intro j
    have hcombined : cross u (edge P (heads k)) * cross (rotated cosTh sinTh u) (P j - P (heads k)) =
        cross u (rotated cosTh sinTh u) * cross (edge P (heads k)) (P j - P (heads k)) +
          cross (rotated cosTh sinTh u) (edge P (heads k)) * cross u (P j - P (heads k)) := by
      simp only [cross]
      ring
    refine (mul_nonneg_iff_of_pos_left hpast).mp ?_
    rw [hcombined, cross_to_rotated]
    exact add_nonneg (mul_nonneg (mul_nonneg hturn.forward (dot_self_pos hne).le) (hedge j))
      (mul_nonneg hbefore (hsupport j))
  · -- The line is along the edge already.
    obtain ⟨ratio, hratio⟩ := exists_smul_of_cross_eq_zero hne halong.symm
    have hpos : 0 < ratio := by
      refine lt_of_le_of_ne (not_lt.mp fun hneg => ?_) fun hzero => ?_
      · exact hpolygon.edge_ne_neg hne hsupport hneg hratio
      · rw [← hzero, zero_smul] at hratio
        exact hpolygon.edge_ne_zero _ hratio
    have hsin : sinTh = 0 := by
      refine le_antisymm (not_lt.mp fun hsin => ?_) hturn.forward
      rw [cross_rotated, ← halong, mul_zero, zero_sub, neg_nonneg, hratio, dot_smul_right] at hbefore
      exact absurd hbefore (not_le.mpr (mul_pos hsin (mul_pos hpos (dot_self_pos hne))))
    have hcos := hpolygon.cos_eq_one hd hall hturn hsin
    have hsame : rotated cosTh sinTh u = u := by
      rw [hcos, hsin, rotated]
      simp
    rwa [hsame]

theorem allSupporting_advanced (hall : AllSupporting P (rotated cosTh sinTh d) heads)
    (hturn : Turn P d heads moved cosTh sinTh) :
    AllSupporting P (rotated cosTh sinTh d)
      (Function.update heads moved (heads moved + 1)) := by
  intro k
  by_cases hk : k = moved
  · subst hk
    rw [Function.update_self]
    obtain ⟨ratio, hratio, halong⟩ := hturn.along
    intro j
    have hleft := hpolygon.supporting_edge_next (heads k) j
    rw [halong, cross_smul_left] at hleft
    exact (mul_nonneg_iff_of_pos_left hratio).mp hleft
  · rw [Function.update_of_ne hk]
    exact hall k

end ConvexPolygon

/-! ## All turns -/

/-- A line has the direction of a vector. -/
def Along (d e : K × K) : Prop :=
  ∃ k, ∃ ratio : K, 0 < ratio ∧ e = ratio • side k d

structure Turning (P : ℕ → K × K) (n : ℕ) (d : ℕ → K × K) (heads : ℕ → Fin 4 → ℕ) : Prop where
  start_ne : d 0 ≠ 0
  start : AllSupporting P (d 0) (heads 0)
  turn : ∀ m < n, ∃ moved cosTh sinTh, Turn P (d m) (heads m) moved cosTh sinTh ∧
    d (m + 1) = rotated cosTh sinTh (d m) ∧
    heads (m + 1) = Function.update (heads m) moved (heads m moved + 1)

namespace Turning

variable {d : ℕ → K × K} {heads : ℕ → Fin 4 → ℕ}

theorem supports (hpolygon : ConvexPolygon n P) (hturning : Turning P n d heads) {m : ℕ}
    (hm : m ≤ n) : d m ≠ 0 ∧ AllSupporting P (d m) (heads m) := by
  induction m with
  | zero => exact ⟨hturning.start_ne, hturning.start⟩
  | succ m ih =>
    obtain ⟨hne, hall⟩ := ih (by omega)
    obtain ⟨moved, cosTh, sinTh, hturn, hd, hheads⟩ := hturning.turn m (by omega)
    rw [hd, hheads]
    exact ⟨rotated_ne_zero hturn.unit hne,
      hpolygon.allSupporting_advanced (hpolygon.allSupporting_turned hne hall hturn) hturn⟩

theorem before_or_along (hpolygon : ConvexPolygon n P) (hturning : Turning P n d heads) {k : Fin 4}
    {i : ℕ} (hquarter : InQuarter (side k (d 0)) (edge P i)) {m : ℕ} (hm : m ≤ n) :
    (∃ l ≤ m, Along (d l) (edge P i)) ∨
      0 < cross (side k (d m)) (edge P i) ∧ 0 < dot (side k (d m)) (edge P i) := by
  -- A line that is parallel to the edge and not opposite to it is along it.
  have halong {m : ℕ} (hne : d m ≠ 0) (hcross : cross (side k (d m)) (edge P i) = 0)
      (hdot : 0 < dot (side k (d m)) (edge P i)) : Along (d m) (edge P i) := by
    obtain ⟨ratio, hratio⟩ := exists_smul_of_cross_eq_zero (side_ne_zero hne k) hcross
    refine ⟨k, ratio, ?_, hratio⟩
    rw [hratio, dot_smul_right] at hdot
    exact (mul_pos_iff_of_pos_right (dot_self_pos (side_ne_zero hne k))).mp hdot
  induction m with
  | zero =>
    rcases lt_or_eq_of_le hquarter.1 with hpast | hon
    · exact .inr ⟨hpast, hquarter.2⟩
    · exact .inl ⟨0, le_rfl, halong hturning.start_ne hon.symm hquarter.2⟩
  | succ m ih =>
    rcases ih (by omega) with ⟨l, hl, hal⟩ | ⟨hcross, hdot⟩
    · exact .inl ⟨l, by omega, hal⟩
    · obtain ⟨hne, hall⟩ := hturning.supports hpolygon (by omega : m ≤ n)
      obtain ⟨moved, cosTh, sinTh, hturn, hd, hheads⟩ := hturning.turn m (by omega)
      have hturned := hpolygon.allSupporting_turned hne hall hturn k
      have hsupport := hall k
      have hnext : d (m + 1) ≠ 0 := (hturning.supports hpolygon hm).1
      have hcross' : cross (side k (d (m + 1))) (edge P i) =
          cosTh * cross (side k (d m)) (edge P i) - sinTh * dot (side k (d m)) (edge P i) := by
        rw [hd, side_rotated, cross_rotated]
      have hdot' : dot (side k (d (m + 1))) (edge P i) =
          cosTh * dot (side k (d m)) (edge P i) + sinTh * cross (side k (d m)) (edge P i) := by
        rw [hd, side_rotated, dot_rotated]
      -- The line does not turn past the edge.
      have hnonneg : 0 ≤ cross (side k (d (m + 1))) (edge P i) := by
        rcases lt_or_eq_of_le hturn.forward with hsin | hsin
        · rw [hd]
          refine hpolygon.not_between rfl hsupport hturned ?_ hcross
          rw [side_rotated, cross_to_rotated]
          exact mul_pos hsin (dot_self_pos (side_ne_zero hne k))
        · rw [hcross', ← hsin, zero_mul, sub_zero,
            hpolygon.cos_eq_one hne hall hturn hsin.symm, one_mul]
          exact hcross.le
      have hcos : 0 < cosTh := by
        have hsum : 0 ≤ cosTh * cross (side k (d m)) (edge P i) := by
          have hother := mul_nonneg hturn.forward hdot.le
          linarith
        refine lt_of_le_of_ne ?_ fun hzero => ?_
        · exact (mul_nonneg_iff_of_pos_right hcross).mp hsum
        · rw [hcross', ← hzero, zero_mul, zero_sub, neg_nonneg] at hnonneg
          have hsin : sinTh = 0 := by
            refine le_antisymm (not_lt.mp fun hsin => ?_) hturn.forward
            exact absurd hnonneg (not_le.mpr (mul_pos hsin hdot))
          have hunit := hturn.unit
          rw [← hzero, hsin, mul_zero, add_zero] at hunit
          exact zero_ne_one hunit
      have hpos : 0 < dot (side k (d (m + 1))) (edge P i) := by
        rw [hdot']
        exact add_pos_of_pos_of_nonneg (mul_pos hcos hdot) (mul_nonneg hturn.forward hcross.le)
      rcases lt_or_eq_of_le hnonneg with hpast | hon
      · exact .inr ⟨hpast, hpos⟩
      · exact .inl ⟨m + 1, le_rfl, halong hnext hon.symm hpos⟩

/-- Lines that are all before an edge have not turned by a right angle. -/
theorem inQuarter_start (hturning : Turning P n d heads) {k : Fin 4} {e : K × K} (he : e ≠ 0)
    (hbefore : ∀ m ≤ n, 0 < cross (side k (d m)) e ∧ 0 < dot (side k (d m)) e) {m : ℕ}
    (hm : m ≤ n) : InQuarter (d 0) (d m) := by
  have hdot {m : ℕ} (hm : m ≤ n) : 0 < dot (d 0) (d m) := by
    obtain ⟨hcross, hdot⟩ := hbefore m hm
    obtain ⟨hcross₀, hdot₀⟩ := hbefore 0 (by omega)
    have hsum := dot_mul_add_cross_mul (side k (d 0)) (side k (d m)) e
    rw [dot_side] at hsum
    have hpos : 0 < dot e e * dot (d 0) (d m) := by
      rw [← hsum]
      exact add_pos (mul_pos hdot₀ hdot) (mul_pos hcross₀ hcross)
    exact (mul_pos_iff_of_pos_left (dot_self_pos he)).mp hpos
  refine ⟨?_, hdot hm⟩
  induction m with
  | zero => rw [cross_same]
  | succ m ih =>
    have hcross := ih (by omega)
    obtain ⟨moved, cosTh, sinTh, hturn, hd, _⟩ := hturning.turn m (by omega)
    have hto := hdot (m := m + 1) hm
    have hfrom := hdot (m := m) (by omega)
    have hto' : dot (d 0) (d (m + 1)) =
        cosTh * dot (d 0) (d m) - sinTh * cross (d 0) (d m) := by
      rw [hd]
      simp only [dot, cross, rotated]
      ring
    have hcross' : cross (d 0) (d (m + 1)) =
        cosTh * cross (d 0) (d m) + sinTh * dot (d 0) (d m) := by
      rw [hd]
      simp only [dot, cross, rotated]
      ring
    have hcos : 0 ≤ cosTh := by
      have hother := mul_nonneg hturn.forward hcross
      refine (mul_nonneg_iff_of_pos_right hfrom).mp ?_
      linarith
    rw [hcross']
    exact add_nonneg (mul_nonneg hcos hcross) (mul_nonneg hturn.forward hfrom.le)

omit [IsStrictOrderedRing K] in
/-- The vertices of a line, turn after turn. -/
theorem heads_bounds (hturning : Turning P n d heads) (k : Fin 4) {m l : ℕ} (hml : m ≤ l)
    (hl : l ≤ n) : heads m k ≤ heads l k ∧ heads l k ≤ heads m k + (l - m) := by
  induction l, hml using Nat.le_induction with
  | base => omega
  | succ l hml ih =>
    obtain ⟨hlow, hhigh⟩ := ih (by omega)
    obtain ⟨moved, _, _, _, _, hheads⟩ := hturning.turn l (by omega)
    rw [hheads]
    by_cases hk : k = moved
    · rw [hk, Function.update_self, ← hk]
      omega
    · rw [Function.update_of_ne hk]
      omega

theorem exists_along (hpolygon : ConvexPolygon n P) (hturning : Turning P n d heads) (i : ℕ) :
    ∃ m ≤ n, Along (d m) (edge P i) := by
  by_contra hnone
  rw [not_exists] at hnone
  obtain ⟨k, hquarter⟩ := exists_inQuarter hturning.start_ne (hpolygon.edge_ne_zero i)
  have hbefore : ∀ m ≤ n, 0 < cross (side k (d m)) (edge P i) ∧
      0 < dot (side k (d m)) (edge P i) := by
    intro m hm
    refine (hturning.before_or_along hpolygon hquarter hm).resolve_left ?_
    rintro ⟨l, hl, halong⟩
    exact hnone l ⟨by omega, halong⟩
  have hstart {m : ℕ} (hm : m ≤ n) : InQuarter (d 0) (d m) :=
    hturning.inQuarter_start (hpolygon.edge_ne_zero i) hbefore hm
  -- The edge that a line is along after each turn.
  choose! moved cosTh sinTh hturn hd hheads using hturning.turn
  have hmet {m : ℕ} (hm : m < n) : Along (d (m + 1)) (edge P (heads m (moved m))) ∧
        InQuarter (side (moved m) (d 0)) (edge P (heads m (moved m))) := by
    obtain ⟨ratio, hratio, halong⟩ := (hturn m hm).along
    rw [← hd m hm] at halong
    refine ⟨⟨moved m, ratio, hratio, halong⟩, ?_⟩
    obtain ⟨hcross, hdot⟩ := hstart (m := m + 1) hm
    rw [halong, InQuarter, cross_smul_right, dot_smul_right, cross_side, dot_side]
    exact ⟨mul_nonneg hratio.le hcross, mul_pos hratio hdot⟩
  let met (m : Fin n) : Fin n := ⟨heads m (moved m) % n, Nat.mod_lt _ hpolygon.pos⟩
  have hdistinct {m l : ℕ} (hml : m < l) (hl : l < n) :
      heads m (moved m) % n ≠ heads l (moved l) % n := by
    intro hsame
    have hedges : edge P (heads m (moved m)) = edge P (heads l (moved l)) := by
      rw [← hpolygon.edge_mod, hsame, hpolygon.edge_mod]
    have hm := (hmet (hml.trans hl)).2
    rw [hedges] at hm
    have hline : moved m = moved l := hm.eq (hmet hl).2
    rw [hline] at hsame
    obtain ⟨hlow, hhigh⟩ := hturning.heads_bounds (moved l) hml (by omega : l ≤ n)
    rw [hheads m (hml.trans hl), hline, Function.update_self] at hlow hhigh
    have hmod := Nat.sub_mod_eq_zero_of_mod_eq hsame.symm
    rw [Nat.mod_eq_of_lt (by omega)] at hmod
    omega
  have hinjective : Function.Injective met := by
    intro m l hsame
    have hvalues := Fin.mk.inj_iff.mp hsame
    rcases lt_trichotomy m.val l.val with hml | hml | hml
    · exact absurd hvalues (hdistinct hml l.isLt)
    · exact Fin.ext hml
    · exact absurd hvalues.symm (hdistinct hml m.isLt)
  obtain ⟨m, hm⟩ := Finite.injective_iff_surjective.mp hinjective ⟨i % n, Nat.mod_lt _ hpolygon.pos⟩
  have hedge : edge P (heads m (moved m)) = edge P i := by
    rw [← hpolygon.edge_mod, Fin.mk.inj_iff.mp hm, hpolygon.edge_mod]
  refine hnone (m + 1) ⟨m.isLt, ?_⟩
  rw [← hedge]
  exact (hmet m.isLt).1

end Turning

end AutowareUniverse.Library.SupportingLines

namespace AutowareUniverse.Library.EnclosingRectangles

/-! ## Rectangles around the hull of a set -/

open PlaneTurns PlaneVectors SupportingLines ConvexChains

variable {K : Type} [Field K] [LinearOrder K]

/-! ## Rectangles -/

structure Rectangle (K : Type) [Field K] where
  corner : K × K
  length : K × K
  width : K × K
  right : dot length width = 0

namespace Rectangle

variable (R : Rectangle K)

def area : K :=
  |cross R.length R.width|

/-- The points of a rectangle, by their shares of its sides. -/
def region : Set (K × K) :=
  {q | ∃ s t : K, 0 ≤ s ∧ s ≤ 1 ∧ 0 ≤ t ∧ t ≤ 1 ∧ q = R.corner + s • R.length + t • R.width}

def corners : Fin 4 → K × K :=
  ![R.corner, R.corner + R.length, R.corner + R.length + R.width, R.corner + R.width]

def HasSide (u : K × K) : Prop :=
  ∃ ratio : K, ratio ≠ 0 ∧ (R.length = ratio • u ∨ R.width = ratio • u)

def swap : Rectangle K where
  corner := R.corner
  length := R.width
  width := R.length
  right := by
    have hright := R.right
    rw [dot] at hright ⊢
    linear_combination hright

variable [IsStrictOrderedRing K] {R : Rectangle K} {u p q p' q' : K × K}

section
omit [IsStrictOrderedRing K]

theorem region_swap (R : Rectangle K) : R.swap.region = R.region := by
  ext q
  constructor
  · rintro ⟨s, t, hs, hs', ht, ht', rfl⟩
    exact ⟨t, s, ht, ht', hs, hs', add_right_comm ..⟩
  · rintro ⟨s, t, hs, hs', ht, ht', rfl⟩
    exact ⟨t, s, ht, ht', hs, hs', add_right_comm ..⟩

theorem area_swap (R : Rectangle K) : R.swap.area = R.area := by
  rw [area, swap, cross_comm, abs_neg, area]

end

/-- Two points of a rectangle differ by at most its sides. -/
theorem exists_sub_eq (hp : p ∈ R.region) (hq : q ∈ R.region) :
    ∃ s t : K, |s| ≤ 1 ∧ |t| ≤ 1 ∧ p - q = s • R.length + t • R.width := by
  obtain ⟨s, t, hs, hs', ht, ht', rfl⟩ := hp
  obtain ⟨s', t', hs₁, hs₂, ht₁, ht₂, rfl⟩ := hq
  refine ⟨s - s', t - t', abs_le.mpr ⟨by linarith, by linarith⟩,
    abs_le.mpr ⟨by linarith, by linarith⟩, ?_⟩
  module

theorem extents_le_of_length {ratio : K} (hratio : ratio ≠ 0) (hside : R.length = ratio • u)
    (hp : p ∈ R.region) (hq : q ∈ R.region) (hp' : p' ∈ R.region) (hq' : q' ∈ R.region) :
    cross u (p - q) * dot u (p' - q') ≤ R.area * dot u u := by
  obtain ⟨_, t, _, ht, hdiff⟩ := exists_sub_eq hp hq
  obtain ⟨s, t', hs, _, hdiff'⟩ := exists_sub_eq hp' hq'
  have hright : dot u R.width = 0 := by
    have hright := R.right
    rw [hside, dot_smul_left] at hright
    exact (mul_eq_zero.mp hright).resolve_left hratio
  have hcross : cross u (p - q) = t * cross u R.width := by
    rw [hdiff, cross_add_right, cross_smul_right, cross_smul_right, hside, cross_smul_right,
      cross_same]
    ring
  have hdot : dot u (p' - q') = s * (ratio * dot u u) := by
    rw [hdiff', dot_add_right, dot_smul_right, dot_smul_right, hright, hside, dot_smul_right]
    ring
  have harea : R.area = |ratio * cross u R.width| := by
    rw [area, hside, cross_smul_left]
  have hshares : t * s * (ratio * cross u R.width) ≤ R.area := by
    rw [harea]
    refine (le_abs_self _).trans ?_
    rw [abs_mul, abs_mul]
    exact mul_le_of_le_one_left (abs_nonneg _) (mul_le_one₀ ht (abs_nonneg _) hs)
  calc cross u (p - q) * dot u (p' - q')
      = t * s * (ratio * cross u R.width) * dot u u := by
        rw [hcross, hdot]
        ring
    _ ≤ R.area * dot u u := mul_le_mul_of_nonneg_right hshares (dot_self_nonneg u)

theorem extents_le (hside : R.HasSide u) (hp : p ∈ R.region) (hq : q ∈ R.region)
    (hp' : p' ∈ R.region) (hq' : q' ∈ R.region) :
    cross u (p - q) * dot u (p' - q') ≤ R.area * dot u u := by
  obtain ⟨ratio, hratio, hlength | hwidth⟩ := hside
  · exact extents_le_of_length hratio hlength hp hq hp' hq'
  · rw [← region_swap] at hp hq hp' hq'
    rw [← area_swap]
    exact extents_le_of_length (R := R.swap) hratio hwidth hp hq hp' hq'

theorem shares_le {s₀ s₁ s₂ t₀ t₁ t₂ : K} (hs₀ : 0 ≤ s₀ ∧ s₀ ≤ 1) (hs₁ : 0 ≤ s₁ ∧ s₁ ≤ 1)
    (hs₂ : 0 ≤ s₂ ∧ s₂ ≤ 1) (ht₀ : 0 ≤ t₀ ∧ t₀ ≤ 1) (ht₁ : 0 ≤ t₁ ∧ t₁ ≤ 1)
    (ht₂ : 0 ≤ t₂ ∧ t₂ ≤ 1) : s₀ * (t₁ - t₂) + s₁ * (t₂ - t₀) + s₂ * (t₀ - t₁) ≤ 1 := by
  -- A share counts for at most its factor, if that is positive.
  have hterm {s factor : K} (hs : 0 ≤ s ∧ s ≤ 1) : s * factor ≤ max factor 0 := by
    rcases le_total 0 factor with hpos | hneg
    · exact (mul_le_of_le_one_left hpos hs.2).trans (le_max_left ..)
    · exact (mul_nonpos_of_nonneg_of_nonpos hs.1 hneg).trans (le_max_right ..)
  have hsum : max (t₁ - t₂) 0 + max (t₂ - t₀) 0 + max (t₀ - t₁) 0 ≤ 1 := by
    rcases max_cases (t₁ - t₂) 0 with ⟨h₀, _⟩ | ⟨h₀, _⟩ <;>
    rcases max_cases (t₂ - t₀) 0 with ⟨h₁, _⟩ | ⟨h₁, _⟩ <;>
    rcases max_cases (t₀ - t₁) 0 with ⟨h₂, _⟩ | ⟨h₂, _⟩ <;>
    · rw [h₀, h₁, h₂]
      linarith [ht₀.1, ht₀.2, ht₁.1, ht₁.2, ht₂.1, ht₂.2]
  exact (add_le_add (add_le_add (hterm hs₀) (hterm hs₁)) (hterm hs₂)).trans hsum

theorem turn_le_area {r : K × K} (hp : p ∈ R.region) (hq : q ∈ R.region) (hr : r ∈ R.region) :
    turn p q r ≤ R.area := by
  obtain ⟨s₀, t₀, hs₀, hs₀', ht₀, ht₀', rfl⟩ := hp
  obtain ⟨s₁, t₁, hs₁, hs₁', ht₁, ht₁', rfl⟩ := hq
  obtain ⟨s₂, t₂, hs₂, hs₂', ht₂, ht₂', rfl⟩ := hr
  have hturn : turn (R.corner + s₀ • R.length + t₀ • R.width)
      (R.corner + s₁ • R.length + t₁ • R.width) (R.corner + s₂ • R.length + t₂ • R.width) =
      (s₀ * (t₁ - t₂) + s₁ * (t₂ - t₀) + s₂ * (t₀ - t₁)) * cross R.length R.width := by
    simp only [turn, cross, Prod.fst_sub, Prod.snd_sub, Prod.fst_add, Prod.snd_add, Prod.smul_fst,
      Prod.smul_snd, smul_eq_mul]
    ring
  have hupper := shares_le ⟨hs₀, hs₀'⟩ ⟨hs₁, hs₁'⟩ ⟨hs₂, hs₂'⟩ ⟨ht₀, ht₀'⟩ ⟨ht₁, ht₁'⟩ ⟨ht₂, ht₂'⟩
  have hlower := shares_le ⟨hs₀, hs₀'⟩ ⟨hs₂, hs₂'⟩ ⟨hs₁, hs₁'⟩ ⟨ht₀, ht₀'⟩ ⟨ht₂, ht₂'⟩ ⟨ht₁, ht₁'⟩
  have habs : |s₀ * (t₁ - t₂) + s₁ * (t₂ - t₀) + s₂ * (t₀ - t₁)| ≤ 1 := by
    refine abs_le.mpr ⟨?_, hupper⟩
    linarith
  rw [hturn, area]
  refine (le_abs_self _).trans ?_
  rw [abs_mul]
  exact mul_le_of_le_one_left (abs_nonneg _) habs

end Rectangle

/-! ## The rectangle between four lines -/

/-- How far the points are apart across a direction, times its length. -/
def extent (v : Fin 4 → K × K) (d : K × K) (k : Fin 4) : K :=
  cross (side k d) (v (k + 2) - v k)

/-- The rectangle between the lines through four points, of which the first and the third one
have the direction and the others are normal to it. -/
def between (v : Fin 4 → K × K) (d : K × K) : Rectangle K where
  corner := v 1 - (cross d (v 1 - v 0) / dot d d) • normal d
  length := (extent v d 0 / dot d d) • normal d
  width := (extent v d 1 / dot d d) • (-d)
  right := by
    simp only [dot, normal, Prod.smul_fst, Prod.smul_snd, Prod.fst_neg, Prod.snd_neg, smul_eq_mul]
    ring

omit [LinearOrder K] in
theorem HasSide.of_smul {R : Rectangle K} {ratio : K} {u : K × K} (hratio : ratio ≠ 0)
    (hside : R.HasSide (ratio • u)) : R.HasSide u := by
  obtain ⟨factor, hfactor, hside⟩ := hside
  rw [smul_smul] at hside
  exact ⟨factor * ratio, mul_ne_zero hfactor hratio, hside⟩

variable {v : Fin 4 → K × K} {d q : K × K}

section
omit [LinearOrder K]

theorem extent_add_two (k : Fin 4) : extent v d (k + 2) = extent v d k := by
  rw [extent, extent, side_add_two, cross_neg_left, ← cross_neg_right, neg_sub,
    show k + 2 + 2 = k by rw [add_assoc]; exact add_zero k]

theorem extent_mul_next (k : Fin 4) :
    extent v d k * extent v d (k + 1) = extent v d 0 * extent v d 1 := by
  have hsecond : extent v d 2 = extent v d 0 := extent_add_two 0
  have hthird : extent v d 3 = extent v d 1 := extent_add_two 1
  fin_cases k
  · rfl
  · exact (congrArg (extent v d 1 * ·) hsecond).trans (mul_comm ..)
  · exact congrArg₂ (· * ·) hsecond hthird
  · exact (congrArg (· * extent v d 0) hthird).trans (mul_comm ..)

end

variable [IsStrictOrderedRing K]

omit [IsStrictOrderedRing K] in
theorem extent_nonneg (hleft : ∀ k l, 0 ≤ cross (side k d) (v l - v k)) (k : Fin 4) :
    0 ≤ extent v d k :=
  hleft k (k + 2)

theorem area_between (hd : d ≠ 0) (hleft : ∀ k l, 0 ≤ cross (side k d) (v l - v k)) :
    (between v d).area * dot d d = extent v d 0 * extent v d 1 := by
  have hpos := dot_self_pos hd
  have hcross : cross (between v d).length (between v d).width =
      extent v d 0 / dot d d * (extent v d 1 / dot d d) * dot d d := by
    simp only [between, cross, dot, normal, Prod.smul_fst, Prod.smul_snd, Prod.fst_neg, Prod.snd_neg,
      smul_eq_mul]
    ring
  have hnonneg : 0 ≤ extent v d 0 / dot d d * (extent v d 1 / dot d d) * dot d d :=
    mul_nonneg (mul_nonneg (div_nonneg (extent_nonneg hleft 0) hpos.le)
      (div_nonneg (extent_nonneg hleft 1) hpos.le)) hpos.le
  rw [Rectangle.area, hcross, abs_of_nonneg hnonneg]
  field_simp

/-- Where two neighbouring lines meet. -/
def cornerOf (v : Fin 4 → K × K) (d : K × K) (k : Fin 4) : K × K :=
  v (k + 1) - (cross (side k d) (v (k + 1) - v k) / dot d d) • side (k + 1) d

theorem corners_between (hd : d ≠ 0) (k : Fin 4) : (between v d).corners k = cornerOf v d k := by
  have hnorm : d.1 * d.1 + d.2 * d.2 = dot d d := rfl
  have hne := (dot_self_pos hd).ne'
  have hcorner : (between v d).corner = v 1 - (cross d (v 1 - v 0) / dot d d) • normal d := rfl
  have hlength : (between v d).length = (cross d (v 2 - v 0) / dot d d) • normal d := rfl
  have hwidth : (between v d).width = (cross (normal d) (v 3 - v 1) / dot d d) • (-d) := rfl
  have hsecond : cornerOf v d 1 = (between v d).corner + (between v d).length := by
    have hdef : cornerOf v d 1 = v 2 - (cross (normal d) (v 2 - v 1) / dot d d) • (-d) := rfl
    rw [hdef, hcorner, hlength]
    generalize dot d d = norm at hnorm hne
    ext
    · simp only [Prod.fst_add, Prod.fst_sub, Prod.smul_fst, Prod.fst_neg, smul_eq_mul, cross, normal,
        Prod.snd_sub]
      field_simp
      linear_combination ((v 1).1 - (v 2).1) * hnorm
    · simp only [Prod.snd_add, Prod.fst_sub, Prod.smul_snd, Prod.snd_neg, smul_eq_mul, cross, normal,
        Prod.snd_sub]
      field_simp
      linear_combination ((v 1).2 - (v 2).2) * hnorm
  have hthird : cornerOf v d 2 =
      (between v d).corner + (between v d).length + (between v d).width := by
    have hdef : cornerOf v d 2 = v 3 - (cross (-d) (v 3 - v 2) / dot d d) • (-normal d) := rfl
    rw [hdef, hcorner, hlength, hwidth]
    generalize dot d d = norm at hnorm hne
    ext
    · simp only [Prod.fst_add, Prod.fst_sub, Prod.smul_fst, Prod.fst_neg, smul_eq_mul, cross, normal,
        Prod.snd_sub, Prod.snd_neg]
      field_simp
      linear_combination ((v 1).1 - (v 3).1) * hnorm
    · simp only [Prod.snd_add, Prod.fst_sub, Prod.smul_snd, Prod.snd_neg, smul_eq_mul, cross, normal,
        Prod.snd_sub, Prod.fst_neg]
      field_simp
      linear_combination ((v 1).2 - (v 3).2) * hnorm
  have hfourth : cornerOf v d 3 = (between v d).corner + (between v d).width := by
    have hdef : cornerOf v d 3 = v 0 - (cross (-normal d) (v 0 - v 3) / dot d d) • d := rfl
    rw [hdef, hcorner, hwidth]
    generalize dot d d = norm at hnorm hne
    ext
    · simp only [Prod.fst_add, Prod.fst_sub, Prod.smul_fst, Prod.fst_neg, smul_eq_mul, cross, normal,
        Prod.snd_sub, Prod.snd_neg]
      field_simp
      linear_combination ((v 1).1 - (v 0).1) * hnorm
    · simp only [Prod.snd_add, Prod.fst_sub, Prod.smul_snd, Prod.snd_neg, smul_eq_mul, cross, normal,
        Prod.snd_sub, Prod.fst_neg]
      field_simp
      linear_combination ((v 1).2 - (v 0).2) * hnorm
  fin_cases k
  · rfl
  · exact hsecond.symm
  · exact hthird.symm
  · exact hfourth.symm

/-- Points left of the four lines are not further apart than the lines. -/
theorem sub_le_extent {p : K × K} (hp : ∀ k, 0 ≤ cross (side k d) (p - v k))
    (hq : ∀ k, 0 ≤ cross (side k d) (q - v k)) (k : Fin 4) :
    cross (side k d) (p - q) ≤ extent v d k := by
  have hopposite := hp (k + 2)
  have hleft := hq k
  rw [side_add_two, cross_neg_left] at hopposite
  have hsum : extent v d k = cross (side k d) (p - q) + cross (side k d) (q - v k) +
      -cross (side k d) (p - v (k + 2)) := by
    simp only [extent, cross, Prod.fst_sub, Prod.snd_sub]
    ring
  linarith

theorem mem_region_between (hd : d ≠ 0) (hq : ∀ k, 0 ≤ cross (side k d) (q - v k)) :
    q ∈ (between v d).region := by
  have hpos := dot_self_pos hd
  have hlow₀ : 0 ≤ cross d (q - v 0) := hq 0
  have hlow₁ : 0 ≤ cross (normal d) (q - v 1) := hq 1
  have hhigh₀ : cross d (q - v 0) ≤ extent v d 0 := by
    have hleft : 0 ≤ cross (-d) (q - v 2) := hq 2
    have hsum : extent v d 0 = cross d (q - v 0) + cross (-d) (q - v 2) := by
      simp only [extent, side_zero, zero_add, cross, Prod.fst_sub, Prod.snd_sub, Prod.fst_neg,
        Prod.snd_neg]
      ring
    linarith
  have hhigh₁ : cross (normal d) (q - v 1) ≤ extent v d 1 := by
    have hleft : 0 ≤ cross (-normal d) (q - v 3) := hq 3
    have hsum : extent v d 1 = cross (normal d) (q - v 1) + cross (-normal d) (q - v 3) := by
      have hthird : (1 : Fin 4) + 2 = 3 := rfl
      simp only [extent, side_one, hthird, cross, Prod.fst_sub, Prod.snd_sub, Prod.fst_neg,
        Prod.snd_neg]
      ring
    linarith
  -- An extent of zero leaves no room.
  have hshare₀ : cross d (q - v 0) / extent v d 0 * extent v d 0 = cross d (q - v 0) :=
    div_mul_cancel_of_imp fun hzero => le_antisymm (hzero ▸ hhigh₀) hlow₀
  have hshare₁ :
      cross (normal d) (q - v 1) / extent v d 1 * extent v d 1 = cross (normal d) (q - v 1) :=
    div_mul_cancel_of_imp fun hzero => le_antisymm (hzero ▸ hhigh₁) hlow₁
  refine ⟨cross d (q - v 0) / extent v d 0, cross (normal d) (q - v 1) / extent v d 1,
    div_nonneg hlow₀ (hlow₀.trans hhigh₀), div_le_one_of_le₀ hhigh₀ (hlow₀.trans hhigh₀),
    div_nonneg hlow₁ (hlow₁.trans hhigh₁), div_le_one_of_le₀ hhigh₁ (hlow₁.trans hhigh₁), ?_⟩
  have hcorner : (between v d).corner = v 1 - (cross d (v 1 - v 0) / dot d d) • normal d := rfl
  have hlength : (between v d).length = (extent v d 0 / dot d d) • normal d := rfl
  have hwidth : (between v d).width = (extent v d 1 / dot d d) • (-d) := rfl
  rw [hcorner, hlength, hwidth, smul_smul, smul_smul, ← mul_div_assoc, ← mul_div_assoc, hshare₀,
    hshare₁]
  have hnorm : d.1 * d.1 + d.2 * d.2 = dot d d := rfl
  have hne := hpos.ne'
  generalize dot d d = norm at hnorm hne
  ext
  · simp only [Prod.fst_add, Prod.fst_sub, Prod.smul_fst, Prod.fst_neg, smul_eq_mul, cross, normal,
      Prod.snd_sub]
    field_simp
    linear_combination ((v 1).1 - q.1) * hnorm
  · simp only [Prod.snd_add, Prod.fst_sub, Prod.smul_snd, Prod.snd_neg, smul_eq_mul, cross, normal,
      Prod.snd_sub]
    field_simp
    linear_combination ((v 1).2 - q.2) * hnorm

/-- No rectangle with the directions of the lines that encloses the points is smaller. -/
theorem area_between_le (hd : d ≠ 0) (hleft : ∀ k l, 0 ≤ cross (side k d) (v l - v k))
    {R : Rectangle K} (hR : ∀ k, v k ∈ R.region) {e : K × K} (halong : Along d e)
    (hside : R.HasSide e) : (between v d).area ≤ R.area := by
  obtain ⟨k, ratio, hratio, rfl⟩ := halong
  have hextents := Rectangle.extents_le (HasSide.of_smul hratio.ne' hside) (hR (k + 2)) (hR k)
    (hR (k + 1)) (hR (k + 3))
  have hnext : dot (side k d) (v (k + 1) - v (k + 3)) = extent v d (k + 1) := by
    have hthree : k + 1 + 2 = k + 3 := by
      rw [add_assoc]
      rfl
    rw [extent, side_succ, cross_normal, hthree, ← neg_sub (v (k + 1))]
    simp only [dot, Prod.fst_neg, Prod.snd_neg]
    ring
  rw [hnext, ← extent, extent_mul_next, dot_side, ← area_between hd hleft] at hextents
  exact le_of_mul_le_mul_right hextents (dot_self_pos hd)

/-! ## Hulls -/

structure HullEdge (A : Set (K × K)) (a b : K × K) : Prop where
  first : a ∈ (convexHull K A).extremePoints K
  second : b ∈ (convexHull K A).extremePoints K
  ne : a ≠ b
  left : ∀ q ∈ A, 0 ≤ turn a b q

/-- A polygon of points that encloses them all. -/
structure IsHull (A : Set (K × K)) (n : ℕ) (P : ℕ → K × K) : Prop where
  polygon : ConvexPolygon n P
  mem : ∀ i, P i ∈ A
  inside : A ⊆ convexHull K (Set.range P)

namespace IsHull

variable {A : Set (K × K)} {n : ℕ} {P : ℕ → K × K} (hhull : IsHull A n P)

include hhull

theorem left_of_supporting {w u : K × K} (hsupport : Supporting P w u) (hq : q ∈ A) :
    0 ≤ cross u (q - w) := by
  refine convexHull_min (t := {q | 0 ≤ cross u (q - w)}) ?_ ?_ (hhull.inside hq)
  · rintro _ ⟨i, rfl⟩
    exact hsupport i
  · refine convex_iff_forall_pos.mpr fun a ha b hb s t hs ht hsum => ?_
    have hmix : s • (a - w) + t • (b - w) = s • a + t • b - w := by
      rw [smul_sub, smul_sub, sub_add_sub_comm, ← add_smul, hsum, one_smul]
    rw [Set.mem_ofPred_eq, ← hmix, cross_add_right, cross_smul_right, cross_smul_right]
    exact add_nonneg (mul_nonneg hs.le ha) (mul_nonneg ht.le hb)

/-- What no vertex exceeds nothing exceeds. -/
theorem dot_le {u : K × K} {high : K} (hle : ∀ i, dot u (P i) ≤ high) (hq : q ∈ A) :
    dot u q ≤ high := by
  refine convexHull_min (t := {q | dot u q ≤ high}) ?_ ?_ (hhull.inside hq)
  · rintro _ ⟨i, rfl⟩
    exact hle i
  · exact convex_halfSpace_le ⟨dot_add_right u, fun ratio w => dot_smul_right u w ratio⟩ high

theorem turn_nonneg (i : ℕ) (hq : q ∈ A) : 0 ≤ turn (P i) (P (i + 1)) q :=
  hhull.left_of_supporting (hhull.polygon.supporting_edge i) hq

theorem mem_extremePoints (i : ℕ) : P i ∈ (convexHull K A).extremePoints K := by
  have hpolygon := hhull.polygon
  have hthree := hpolygon.three
  -- The vertex before this one.
  obtain ⟨j, hj⟩ : ∃ j, P (j + 1) = P i := by
    refine ⟨i + (n - 1), ?_⟩
    rw [show i + (n - 1) + 1 = i + n by omega, ← hpolygon.periodic, Nat.add_mod_right,
      hpolygon.periodic]
  rw [← hj]
  refine mem_extremePoints_corner (hhull.mem (j + 1)) (p := P j) (c := P (j + 2)) ?_
    (fun q hq => hhull.turn_nonneg j hq) (fun q hq => hhull.turn_nonneg (j + 1) hq)
  have hpos := hpolygon.turn_edge_pos (i := j % n) (j := (j + 2) % n) (Nat.mod_lt _ hpolygon.pos)
    (Nat.mod_lt _ hpolygon.pos) ?_ ?_
  · rwa [← hpolygon.periodic (j % n + 1), Nat.mod_add_mod, hpolygon.periodic, hpolygon.periodic,
      hpolygon.periodic] at hpos
  · intro hsame
    have hmod := Nat.sub_mod_eq_zero_of_mod_eq hsame
    rw [Nat.add_sub_cancel_left, Nat.mod_eq_of_lt (by omega)] at hmod
    exact absurd hmod (by decide)
  · rw [Nat.mod_add_mod]
    intro hsame
    have hmod := Nat.sub_mod_eq_zero_of_mod_eq hsame
    rw [show j + 2 - (j + 1) = 1 by omega, Nat.mod_eq_of_lt (by omega)] at hmod
    exact absurd hmod (by decide)

theorem hullEdge (i : ℕ) : HullEdge A (P i) (P (i + 1)) where
  first := hhull.mem_extremePoints i
  second := hhull.mem_extremePoints (i + 1)
  ne := fun hsame => hhull.polygon.edge_ne_zero i (by rw [edge, hsame, sub_self])
  left := fun _ hq => hhull.turn_nonneg i hq

theorem exists_of_mem_extremePoints (hq : q ∈ (convexHull K A).extremePoints K) :
    ∃ i < n, P i = q := by
  have hsame : convexHull K A = convexHull K (Set.range P) := by
    refine subset_antisymm (convexHull_min hhull.inside (convex_convexHull K _))
      (convexHull_mono ?_)
    rintro _ ⟨i, rfl⟩
    exact hhull.mem i
  rw [hsame] at hq
  obtain ⟨i, rfl⟩ := extremePoints_convexHull_subset hq
  exact ⟨i % n, Nat.mod_lt _ hhull.polygon.pos, hhull.polygon.periodic i⟩

theorem exists_edge {a b : K × K} (hedge : HullEdge A a b) : ∃ i, edge P i = b - a := by
  have hpolygon := hhull.polygon
  obtain ⟨i, hi, rfl⟩ := hhull.exists_of_mem_extremePoints hedge.first
  obtain ⟨j, hj, rfl⟩ := hhull.exists_of_mem_extremePoints hedge.second
  refine ⟨i, ?_⟩
  by_cases hnext : j = (i + 1) % n
  · rw [edge, hnext, hpolygon.periodic]
  · -- Another vertex would leave the next one on the right.
    have hne : j ≠ i := fun hsame => hedge.ne (by rw [hsame])
    have hpos := hpolygon.turn_edge_pos hi hj hne hnext
    have hleft := hedge.left _ (hhull.mem (i + 1))
    rw [turn_swap] at hleft
    exact absurd hpos (not_lt.mpr (neg_nonneg.mp hleft))

end IsHull

end AutowareUniverse.Library.EnclosingRectangles
