import AutowareUniverse.Library.Numerals
import Mathlib.Geometry.Convex.Cone.Basic
import Mathlib.Tactic.Linarith

/-!
# Turns in the plane

Three points turn left if their cross product is positive.  Of points in the order of a sweep,
that is ordered by the vectors of a convex cone that holds each vector or its opposite, the
turns are ordered as slopes are: the turns of some triples of points give those of others.
-/

namespace AutowareUniverse.Library.PlaneTurns

variable {K : Type} [Field K]

def cross (u v : K × K) : K :=
  u.1 * v.2 - u.2 * v.1

theorem cross_smul_right (u v : K × K) (ratio : K) : cross u (ratio • v) = ratio * cross u v := by
  simp only [cross, Prod.smul_fst, Prod.smul_snd, smul_eq_mul]
  ring

theorem cross_add_right (u v w : K × K) : cross u (v + w) = cross u v + cross u w := by
  simp only [cross, Prod.fst_add, Prod.snd_add]
  ring

theorem cross_neg_right (u v : K × K) : cross u (-v) = -cross u v := by
  simp only [cross, Prod.fst_neg, Prod.snd_neg]
  ring

variable (a b c : K × K)

/-- Positive for a point `c` left of the line from `a` to `b`. -/
def turn : K :=
  cross (b - a) (c - a)

theorem turn_rotate : turn b c a = turn a b c := by
  simp only [turn, cross, Prod.fst_sub, Prod.snd_sub]
  ring

theorem turn_swap : turn a c b = -turn a b c := by
  simp only [turn, cross, Prod.fst_sub, Prod.snd_sub]
  ring

theorem turn_flip : turn b a c = -turn a b c := by
  simp only [turn, cross, Prod.fst_sub, Prod.snd_sub]
  ring

@[simp]
theorem turn_self_left (a b : K × K) : turn a a b = 0 := by
  simp [turn, cross]

@[simp]
theorem turn_self_right (a b : K × K) : turn a b b = 0 := by
  rw [turn, cross]
  ring

@[simp]
theorem turn_self_outer (a b : K × K) : turn a b a = 0 := by
  simp [turn, cross]

/-! ## The order of a sweep -/

variable [LinearOrder K]

/-- The vectors that go forward: of each vector and its opposite one does, and both only if the
vector is zero. -/
structure Sweep (C : ConvexCone K (K × K)) : Prop where
  salient : C.Salient
  total : ∀ v : K × K, v ∈ C ∨ -v ∈ C

def Behind (C : ConvexCone K (K × K)) (a b : K × K) : Prop :=
  b - a ∈ C

variable {C : ConvexCone K (K × K)} {a b c d : K × K} {v : K × K}

section

variable (hsweep : Sweep C)

include hsweep

theorem Sweep.eq_zero (hmem : v ∈ C) (hneg : -v ∈ C) : v = 0 := by
  by_contra hne
  exact hsweep.salient v hmem hne hneg

theorem Sweep.zero_mem : (0 : K × K) ∈ C := by
  have hzero := hsweep.total 0
  rwa [neg_zero, or_self] at hzero

theorem Sweep.smul_mem {ratio : K} (hratio : 0 ≤ ratio) (hmem : v ∈ C) : ratio • v ∈ C := by
  rcases hratio.eq_or_lt with rfl | hpos
  · rw [zero_smul]
    exact hsweep.zero_mem
  · exact C.smul_mem hpos hmem

theorem Sweep.refl (a : K × K) : Behind C a a := by
  rw [Behind, sub_self]
  exact hsweep.zero_mem

theorem Sweep.antisymm (hab : Behind C a b) (hba : Behind C b a) : a = b := by
  rw [Behind, ← neg_sub] at hba
  exact (sub_eq_zero.mp (hsweep.eq_zero hab hba)).symm

theorem Sweep.total_behind (a b : K × K) : Behind C a b ∨ Behind C b a := by
  have htotal := hsweep.total (b - a)
  rwa [neg_sub] at htotal

end

theorem Behind.trans (hab : Behind C a b) (hbc : Behind C b c) : Behind C a c := by
  have hsum := C.add_mem hbc hab
  rwa [sub_add_sub_cancel] at hsum

theorem Sweep.comap_neg (hsweep : Sweep C) : Sweep (C.comap (-LinearMap.id)) where
  salient := fun v hmem hne hneg =>
    hsweep.salient (-v) hmem (neg_ne_zero.mpr hne) hneg
  total := fun v => (hsweep.total (-v)).imp id id

theorem behind_comap_neg : Behind (C.comap (-LinearMap.id)) a b ↔ Behind C b a := by
  rw [Behind, ConvexCone.mem_comap, LinearMap.neg_apply, LinearMap.id_apply, neg_sub, Behind]

omit [LinearOrder K] in
theorem cross_smul (u v w : K × K) : cross u w • v = cross u v • w + cross v w • u := by
  ext
  · simp only [cross, Prod.smul_fst, Prod.fst_add, smul_eq_mul]
    ring
  · simp only [cross, Prod.smul_snd, Prod.snd_add, smul_eq_mul]
    ring

variable [IsStrictOrderedRing K]

section

variable {u v w : K × K}

omit [LinearOrder K] [IsStrictOrderedRing K] in
theorem exists_smul_of_cross_eq_zero (hne : u ≠ 0) (hcross : cross u v = 0) :
    ∃ ratio : K, v = ratio • u := by
  rw [cross, sub_eq_zero] at hcross
  by_cases hfst : u.1 = 0
  · have hsnd : u.2 ≠ 0 := fun hzero => hne (Prod.ext hfst hzero)
    have hv : v.1 = 0 := by
      rw [hfst, zero_mul, eq_comm, mul_eq_zero] at hcross
      exact hcross.resolve_left hsnd
    refine ⟨v.2 / u.2, Prod.ext ?_ ?_⟩
    · rw [Prod.smul_fst, hfst, hv, smul_zero]
    · rw [Prod.smul_snd, smul_eq_mul, div_mul_cancel₀ _ hsnd]
  · refine ⟨v.1 / u.1, Prod.ext ?_ ?_⟩
    · rw [Prod.smul_fst, smul_eq_mul, div_mul_cancel₀ _ hfst]
    · rw [Prod.smul_snd, smul_eq_mul, div_mul_eq_mul_div, eq_div_iff hfst, mul_comm, hcross,
        mul_comm]

theorem Sweep.cross_nonneg (hsweep : Sweep C) (hu : u ∈ C) (hv : v ∈ C) (hw : w ∈ C) (hne : v ≠ 0)
    (hfirst : 0 ≤ cross u v) (hsecond : 0 ≤ cross v w) : 0 ≤ cross u w := by
  by_contra hneg
  have hsum := C.add_mem (hsweep.smul_mem hfirst hw) (hsweep.smul_mem hsecond hu)
  rw [← cross_smul] at hsum
  have hopposite := C.smul_mem (neg_pos.mpr (not_le.mp hneg)) hv
  rw [neg_smul] at hopposite
  rcases smul_eq_zero.mp (hsweep.eq_zero hsum hopposite) with hzero | hzero
  · exact hneg hzero.ge
  · exact hne hzero

theorem Sweep.cross_pos_left (hsweep : Sweep C) (hu : u ∈ C) (hv : v ∈ C) (hw : w ∈ C)
    (hne : w ≠ 0) (hfirst : 0 < cross u v) (hsecond : 0 ≤ cross v w) : 0 < cross u w := by
  have hv0 : v ≠ 0 := by
    rintro rfl
    simp [cross] at hfirst
  refine lt_of_le_of_ne (hsweep.cross_nonneg hu hv hw hv0 hfirst.le hsecond) fun hzero => ?_
  have hsum := cross_smul u v w
  rw [← hzero, zero_smul] at hsum
  have hopposite := hsweep.smul_mem hsecond hu
  rw [← neg_eq_of_add_eq_zero_right hsum.symm] at hopposite
  rcases smul_eq_zero.mp (hsweep.eq_zero (C.smul_mem hfirst hw) hopposite) with hfirst0 | hw0
  · exact hfirst.ne' hfirst0
  · exact hne hw0

theorem Sweep.cross_pos_right (hsweep : Sweep C) (hu : u ∈ C) (hv : v ∈ C) (hw : w ∈ C)
    (hne : u ≠ 0) (hfirst : 0 ≤ cross u v) (hsecond : 0 < cross v w) : 0 < cross u w := by
  have hv0 : v ≠ 0 := by
    rintro rfl
    simp [cross] at hsecond
  refine lt_of_le_of_ne (hsweep.cross_nonneg hu hv hw hv0 hfirst hsecond.le) fun hzero => ?_
  have hsum := cross_smul u v w
  rw [← hzero, zero_smul] at hsum
  have hopposite := hsweep.smul_mem hfirst hw
  rw [← neg_eq_of_add_eq_zero_left hsum.symm] at hopposite
  rcases smul_eq_zero.mp (hsweep.eq_zero (C.smul_mem hsecond hu) hopposite) with hsecond0 | hu0
  · exact hsecond.ne' hsecond0
  · exact hne hu0

end

theorem Sweep.nonneg_of_smul_mem (hsweep : Sweep C) {ratio : K} (hmem : v ∈ C)
    (hne : v ≠ 0) (hsmul : ratio • v ∈ C) : 0 ≤ ratio := by
  by_contra hneg
  have hopposite := C.smul_mem (neg_pos.mpr (not_le.mp hneg)) hmem
  rw [neg_smul] at hopposite
  rcases smul_eq_zero.mp (hsweep.eq_zero hsmul hopposite) with hzero | hzero
  · exact hneg hzero.ge
  · exact hne hzero

theorem Sweep.turn_trans (hsweep : Sweep C) (hab : Behind C a b) (hbc : Behind C b c)
    (hcd : Behind C c d) (hfirst : 0 < turn a b c) (hsecond : 0 < turn b c d) :
    0 < turn a b d ∧ 0 < turn a c d := by
  have hfirst' : 0 < cross (b - a) (c - b) := by
    rw [turn] at hfirst
    simp only [cross, Prod.fst_sub, Prod.snd_sub] at hfirst ⊢
    linarith
  have hsecond' : 0 < cross (c - b) (d - c) := by
    rw [turn] at hsecond
    simp only [cross, Prod.fst_sub, Prod.snd_sub] at hsecond ⊢
    linarith
  have hne : d - c ≠ 0 := by
    intro hzero
    rw [hzero] at hsecond'
    simp [cross] at hsecond'
  have hthird := hsweep.cross_pos_left hab hbc hcd hne hfirst' hsecond'.le
  simp only [turn, cross, Prod.fst_sub, Prod.snd_sub] at hfirst' hsecond' hthird ⊢
  constructor <;> linarith

theorem Sweep.turn_push (hsweep : Sweep C) (hat : Behind C a b) (hqt : Behind C d b)
    (htp : Behind C b c) (hleft : 0 ≤ turn a b d) (hturn : 0 < turn a b c) : 0 ≤ turn b c d := by
  have hne : b - a ≠ 0 := by
    intro hzero
    rw [turn, hzero] at hturn
    simp [cross] at hturn
  have hleft' : 0 ≤ cross (b - d) (b - a) := by
    simp only [turn, cross, Prod.fst_sub, Prod.snd_sub] at hleft ⊢
    linarith
  have hturn' : 0 ≤ cross (b - a) (c - b) := by
    simp only [turn, cross, Prod.fst_sub, Prod.snd_sub] at hturn ⊢
    linarith
  have hresult := hsweep.cross_nonneg hqt hat htp hne hleft' hturn'
  simp only [turn, cross, Prod.fst_sub, Prod.snd_sub] at hresult ⊢
  linarith

theorem Sweep.turn_pop (hsweep : Sweep C) (hab : Behind C a b) (hac : Behind C a c)
    (had : Behind C a d) (hne : a ≠ b) (hleft : 0 ≤ turn a b d) (hturn : turn a b c ≤ 0) :
    0 ≤ turn a c d := by
  refine hsweep.cross_nonneg hac hab had (sub_ne_zero.mpr hne.symm) ?_ hleft
  have hswap := turn_swap a b c
  rw [turn] at hswap
  linarith

/-- An edge `a b` of a chain from `first` to `last` has the points left of the chord on its left. -/
theorem Sweep.turn_across (hsweep : Sweep C) {first last : K × K} (hfirst : Behind C first a)
    (hab : Behind C a b) (hlast : Behind C b last) (hleft : Behind C first c)
    (hright : Behind C c last) (hne : a ≠ b) (hstart : 0 ≤ turn first a b)
    (hend : 0 ≤ turn a b last) (hchord : 0 < turn first last c) : 0 < turn a b c := by
  have hchordMem : last - first ∈ C := (hfirst.trans hab).trans hlast
  have hne' : b - a ≠ 0 := sub_ne_zero.mpr hne.symm
  rcases le_total 0 (cross (b - a) (last - first)) with hslope | hslope
  · have hpos := hsweep.cross_pos_right hab hchordMem hleft hne' hslope hchord
    simp only [turn, cross, Prod.fst_sub, Prod.snd_sub] at hpos hstart ⊢
    linarith
  · have hchord' : 0 < cross (last - c) (last - first) := by
      simp only [turn, cross, Prod.fst_sub, Prod.snd_sub] at hchord ⊢
      linarith
    have hslope' : 0 ≤ cross (last - first) (b - a) := by
      simp only [cross] at hslope ⊢
      linarith
    have hpos := hsweep.cross_pos_left hright hchordMem hab hne' hchord' hslope'
    simp only [turn, cross, Prod.fst_sub, Prod.snd_sub] at hpos hend ⊢
    linarith

/-- The vectors to the right, and those straight up. -/
def lexCone : ConvexCone K (K × K) where
  carrier := {v | 0 < v.1 ∨ v.1 = 0 ∧ 0 ≤ v.2}
  smul_mem' := by
    rintro ratio hratio v (hright | ⟨hlevel, hup⟩)
    · exact .inl (mul_pos hratio hright)
    · exact .inr ⟨by rw [Prod.smul_fst, hlevel, smul_zero], mul_nonneg hratio.le hup⟩
  add_mem' := by
    rintro v (hv | ⟨hv, hvup⟩) w (hw | ⟨hw, hwup⟩)
    · exact .inl (add_pos hv hw)
    · exact .inl (by rwa [Prod.fst_add, hw, add_zero])
    · exact .inl (by rwa [Prod.fst_add, hv, zero_add])
    · exact .inr ⟨by rw [Prod.fst_add, hv, hw, add_zero], add_nonneg hvup hwup⟩

theorem mem_lexCone : v ∈ lexCone ↔ 0 < v.1 ∨ v.1 = 0 ∧ 0 ≤ v.2 :=
  Iff.rfl

theorem sweep_lexCone : Sweep (lexCone : ConvexCone K (K × K)) where
  salient := by
    intro v hmem hne hneg
    rw [mem_lexCone, Prod.fst_neg, Prod.snd_neg] at hneg
    rcases hmem with hright | ⟨hlevel, hup⟩
    · rcases hneg with hleft | ⟨hlevel, -⟩ <;> linarith
    · rcases hneg with hleft | ⟨-, hdown⟩
      · linarith
      · exact hne (Prod.ext hlevel (le_antisymm (by simpa using hdown) hup))
  total := by
    intro v
    rw [mem_lexCone, mem_lexCone, Prod.fst_neg, Prod.snd_neg, neg_pos, neg_eq_zero, neg_nonneg]
    rcases lt_trichotomy v.1 0 with hleft | hlevel | hright
    · exact .inr (.inl hleft)
    · exact (le_total 0 v.2).imp (fun hup => .inr ⟨hlevel, hup⟩) fun hdown => .inr ⟨hlevel, hdown⟩
    · exact .inl (.inl hright)

end AutowareUniverse.Library.PlaneTurns

namespace AutowareUniverse.Library.PlaneVectors

/-! ## Vectors in the plane -/

open PlaneTurns

variable {K : Type} [Field K]

def dot (u v : K × K) : K :=
  u.1 * v.1 + u.2 * v.2

/-- A vector after a quarter turn to the left. -/
def normal (v : K × K) : K × K :=
  (-v.2, v.1)

/-- The direction of each of the four lines. -/
def side (k : Fin 4) (d : K × K) : K × K :=
  normal^[k] d

def rotated (cosTh sinTh : K) (v : K × K) : K × K :=
  (cosTh * v.1 - sinTh * v.2, sinTh * v.1 + cosTh * v.2)

section

variable (u v w d : K × K) (cosTh sinTh : K)

@[simp]
theorem side_zero : side 0 d = d := rfl

@[simp]
theorem side_one : side 1 d = normal d := rfl

@[simp]
theorem side_two : side 2 d = -d := rfl

@[simp]
theorem side_three : side 3 d = -normal d := rfl

variable (k : Fin 4)

theorem side_succ : side (k + 1) d = normal (side k d) := by
  fin_cases k
  · rfl
  · rfl
  · rfl
  · simp [side, normal]

theorem side_add_two : side (k + 2) d = -side k d := by
  have htwo : k + 2 = k + 1 + 1 := by
    rw [add_assoc]
    rfl
  rw [htwo, side_succ, side_succ]
  rfl

theorem cross_normal : cross (normal u) v = -dot u v := by
  rw [cross, dot, normal]
  ring

theorem dot_comm : dot v u = dot u v := by
  rw [dot, dot]
  ring

theorem dot_normal : dot (normal u) v = cross u v := by
  rw [cross, dot, normal]
  ring

theorem cross_same : cross u u = 0 := by
  rw [cross]
  ring

theorem cross_comm : cross v u = -cross u v := by
  rw [cross, cross]
  ring

theorem cross_neg_left : cross (-u) v = -cross u v := by
  simp only [cross, Prod.fst_neg, Prod.snd_neg]
  ring

theorem dot_neg_left : dot (-u) v = -dot u v := by
  simp only [dot, Prod.fst_neg, Prod.snd_neg]
  ring

theorem cross_smul_left (ratio : K) : cross (ratio • u) v = ratio * cross u v := by
  simp only [cross, Prod.smul_fst, Prod.smul_snd, smul_eq_mul]
  ring

theorem dot_smul_right (ratio : K) : dot u (ratio • v) = ratio * dot u v := by
  simp only [dot, Prod.smul_fst, Prod.smul_snd, smul_eq_mul]
  ring

theorem dot_smul_left (ratio : K) : dot (ratio • u) v = ratio * dot u v := by
  simp only [dot, Prod.smul_fst, Prod.smul_snd, smul_eq_mul]
  ring

theorem dot_add_right : dot u (v + w) = dot u v + dot u w := by
  simp only [dot, Prod.fst_add, Prod.snd_add]
  ring

theorem dot_sub_right : dot u (v - w) = dot u v - dot u w := by
  simp only [dot, Prod.fst_sub, Prod.snd_sub]
  ring

theorem dot_neg_right : dot u (-v) = -dot u v := by
  simp only [dot, Prod.fst_neg, Prod.snd_neg]
  ring

theorem cross_sub_right : cross u (v - w) = cross u v - cross u w := by
  simp only [cross, Prod.fst_sub, Prod.snd_sub]
  ring

theorem cross_zero_left : cross 0 v = 0 := by
  simp [cross]

theorem cross_zero_right : cross u 0 = 0 := by
  simp [cross]

theorem normal_rotated : normal (rotated cosTh sinTh u) = rotated cosTh sinTh (normal u) := by
  ext
  · rw [normal, rotated, rotated, normal]
    ring
  · rw [normal, rotated, rotated, normal]
    ring

theorem side_rotated : side k (rotated cosTh sinTh d) = rotated cosTh sinTh (side k d) :=
  Function.Commute.iterate_left (fun v => normal_rotated v cosTh sinTh) k d

theorem cross_rotated : cross (rotated cosTh sinTh u) v = cosTh * cross u v - sinTh * dot u v := by
  rw [cross, cross, dot, rotated]
  ring

theorem dot_rotated : dot (rotated cosTh sinTh u) v = cosTh * dot u v + sinTh * cross u v := by
  rw [cross, dot, dot, rotated]
  ring

theorem cross_to_rotated : cross u (rotated cosTh sinTh u) = sinTh * dot u u := by
  rw [cross, dot, rotated]
  ring

/-- Cosine and sine of the angle between two vectors. -/
theorem dot_mul_add_cross_mul :
    dot u w * dot v w + cross u w * cross v w = dot w w * dot u v := by
  simp only [cross, dot]
  ring

theorem dot_normal_normal : dot (normal u) (normal v) = dot u v := by
  rw [dot, dot, normal, normal]
  ring

theorem dot_side : dot (side k u) (side k v) = dot u v := by
  fin_cases k <;> simp [dot, normal] <;> ring

theorem cross_side : cross (side k u) (side k v) = cross u v := by
  fin_cases k <;> simp [cross, normal] <;> ring

end

variable [LinearOrder K] [IsStrictOrderedRing K]

theorem dot_self_nonneg (v : K × K) : 0 ≤ dot v v :=
  add_nonneg (mul_self_nonneg _) (mul_self_nonneg _)

theorem dot_self_pos {v : K × K} (hne : v ≠ 0) : 0 < dot v v := by
  have hcases : v.1 ≠ 0 ∨ v.2 ≠ 0 := by
    by_contra hzero
    rw [not_or, not_not, not_not] at hzero
    exact hne (Prod.ext hzero.1 hzero.2)
  rw [dot]
  rcases hcases with hfst | hsnd
  · exact add_pos_of_pos_of_nonneg (mul_self_pos.mpr hfst) (mul_self_nonneg _)
  · exact add_pos_of_nonneg_of_pos (mul_self_nonneg _) (mul_self_pos.mpr hsnd)

theorem side_ne_zero {d : K × K} (hd : d ≠ 0) (k : Fin 4) : side k d ≠ 0 := by
  intro hzero
  have hpos := dot_self_pos hd
  rw [← dot_side d d k, hzero, dot, Prod.fst_zero, Prod.snd_zero, mul_zero, add_zero] at hpos
  exact lt_irrefl _ hpos

section

variable {cosTh sinTh : K}

section
omit [LinearOrder K] [IsStrictOrderedRing K]

theorem rotated_ne_zero {v : K × K} {cosTh sinTh : K}
    (hunit : cosTh * cosTh + sinTh * sinTh = 1) (hv : v ≠ 0) : rotated cosTh sinTh v ≠ 0 := by
  intro hzero
  have hfst : cosTh * v.1 - sinTh * v.2 = 0 := congrArg Prod.fst hzero
  have hsnd : sinTh * v.1 + cosTh * v.2 = 0 := congrArg Prod.snd hzero
  refine hv (Prod.ext ?_ ?_)
  · rw [Prod.fst_zero]
    linear_combination cosTh * hfst + sinTh * hsnd - v.1 * hunit
  · rw [Prod.snd_zero]
    linear_combination cosTh * hsnd - sinTh * hfst - v.2 * hunit

theorem dot_rotated_rotated {cosTh sinTh : K} (hunit : cosTh * cosTh + sinTh * sinTh = 1)
    (u : K × K) : dot (rotated cosTh sinTh u) (rotated cosTh sinTh u) = dot u u := by
  rw [dot, dot, rotated]
  linear_combination (u.1 * u.1 + u.2 * u.2) * hunit

end

theorem sin_mul_cos_le {cosTh' sinTh' : K} (hunit : cosTh * cosTh + sinTh * sinTh = 1)
    (hunit' : cosTh' * cosTh' + sinTh' * sinTh' = 1) (hsin : 0 ≤ sinTh) (hsin' : 0 ≤ sinTh')
    (hcos : cosTh' ≤ cosTh) : sinTh * cosTh' ≤ cosTh * sinTh' := by
  rcases le_or_gt 0 cosTh' with hpos | hneg
  · -- Both are at most a right angle.
    have hle : sinTh ≤ sinTh' := by
      refine abs_le_of_sq_le_sq' ?_ hsin' |>.2
      have hsquares := mul_self_le_mul_self hpos hcos
      rw [sq, sq]
      linarith
    calc sinTh * cosTh' ≤ sinTh' * cosTh := mul_le_mul hle hcos hpos hsin'
      _ = cosTh * sinTh' := mul_comm ..
  · rcases le_or_gt 0 cosTh with hpos | hneg'
    · exact (mul_nonpos_of_nonneg_of_nonpos hsin hneg.le).trans (mul_nonneg hpos hsin')
    · -- Both are larger than a right angle.
      have hle : sinTh' ≤ sinTh := by
        refine abs_le_of_sq_le_sq' ?_ hsin |>.2
        have hsquares := mul_self_le_mul_self (neg_pos.mpr hneg').le (neg_le_neg hcos)
        rw [neg_mul_neg, neg_mul_neg] at hsquares
        rw [sq, sq]
        linarith
      calc sinTh * cosTh' ≤ sinTh' * cosTh' := mul_le_mul_of_nonpos_right hle hneg.le
        _ ≤ sinTh' * cosTh := mul_le_mul_of_nonneg_left hcos hsin'
        _ = cosTh * sinTh' := mul_comm ..

theorem cos_sin_unit {u e : K × K} {mag : K} (hpos : 0 < mag) (hmag : mag * mag = dot e e * dot u u) :
    dot u e / mag * (dot u e / mag) + cross u e / mag * (cross u e / mag) = 1 := by
  have hsum := dot_mul_add_cross_mul u u e
  rw [← hmag] at hsum
  have hne := hpos.ne'
  field_simp
  linear_combination hsum

end

/-- A vector lies between two neighbouring directions: along the first one or past it, and before
the second one. -/
def InQuarter (d e : K × K) : Prop :=
  0 ≤ cross d e ∧ 0 < dot d e

theorem exists_inQuarter {d e : K × K} (hd : d ≠ 0) (he : e ≠ 0) : ∃ k, InQuarter (side k d) e := by
  have hnorm : dot d e * dot d e + cross d e * cross d e = dot e e * dot d d :=
    dot_mul_add_cross_mul d d e
  have hpos : 0 < dot e e * dot d d := mul_pos (dot_self_pos he) (dot_self_pos hd)
  rcases lt_trichotomy (dot d e) 0 with hdot | hdot | hdot
  · rcases le_or_gt (cross d e) 0 with hcross | hcross
    · refine ⟨2, ?_, ?_⟩
      · rw [side_two, cross_neg_left]
        exact neg_nonneg.mpr hcross
      · rw [side_two, dot_neg_left]
        exact neg_pos.mpr hdot
    · refine ⟨1, ?_, ?_⟩
      · rw [side_one, cross_normal]
        exact neg_nonneg.mpr hdot.le
      · rwa [side_one, dot_normal]
  · rcases lt_or_ge 0 (cross d e) with hcross | hcross
    · refine ⟨1, ?_, ?_⟩
      · rw [side_one, cross_normal, hdot, neg_zero]
      · rwa [side_one, dot_normal]
    · refine ⟨3, ?_, ?_⟩
      · rw [side_three, cross_neg_left, cross_normal, hdot, neg_zero, neg_zero]
      · rw [side_three, dot_neg_left, dot_normal, neg_pos]
        refine lt_of_le_of_ne hcross fun hzero => ?_
        rw [← hnorm, hdot, hzero, mul_zero, add_zero] at hpos
        exact lt_irrefl _ hpos
  · rcases le_or_gt 0 (cross d e) with hcross | hcross
    · exact ⟨0, hcross, hdot⟩
    · refine ⟨3, ?_, ?_⟩
      · rw [side_three, cross_neg_left, cross_normal, neg_neg]
        exact hdot.le
      · rw [side_three, dot_neg_left, dot_normal]
        exact neg_pos.mpr hcross

theorem InQuarter.eq {d e : K × K} {k l : Fin 4} (hk : InQuarter (side k d) e)
    (hl : InQuarter (side l d) e) : k = l := by
  obtain ⟨hkcross, hkdot⟩ := hk
  obtain ⟨hlcross, hldot⟩ := hl
  fin_cases k <;> fin_cases l <;> first
    | rfl
    | simp only [Fin.zero_eta, Fin.mk_one, Fin.reduceFinMk, side_zero, side_one, side_two,
        side_three, cross_neg_left, dot_neg_left, cross_normal, dot_normal] at *
      linarith

end AutowareUniverse.Library.PlaneVectors
