import AutowareUniverse.Library.Numerals
import Mathlib.Algebra.Order.Archimedean.Basic

/-!
# Bisection

Halving an interval until the function is small at its middle.  Around a sign change it
ends if the function does not rise too fast, and a smaller function ends further up.
-/

namespace AutowareUniverse.Library.Bisection

variable {K : Type} [Field K] [LinearOrder K]

/-- The middle of the first interval where the function is below the tolerance, within a
number of halvings. -/
def bisect (f : K → K) (eps : K) : ℕ → K → K → Option K
  | 0, _, _ => none
  | fuel + 1, lower, upper =>
    let t := (lower + upper) / 2
    if |f t| < eps then some t
    else if 0 < f t then bisect f eps fuel lower t
    else bisect f eps fuel t upper

variable [IsStrictOrderedRing K] {f g : K → K} {eps lower upper : K}

theorem middle_mem (hle : lower ≤ upper) :
    lower ≤ (lower + upper) / 2 ∧ (lower + upper) / 2 ≤ upper := by
  constructor <;> linarith

theorem bisect_some {fuel : ℕ} {t : K} (hle : lower ≤ upper)
    (hfound : bisect f eps fuel lower upper = some t) : lower ≤ t ∧ t ≤ upper ∧ |f t| < eps := by
  induction fuel generalizing lower upper with
  | zero => cases hfound
  | succ fuel ih =>
    obtain ⟨hlower, hupper⟩ := middle_mem hle
    rw [bisect] at hfound
    split_ifs at hfound with hsmall hpositive
    · obtain rfl := Option.some.inj hfound
      exact ⟨hlower, hupper, hsmall⟩
    · obtain ⟨hge, hbefore, hsmall⟩ := ih hlower hfound
      exact ⟨hge, hbefore.trans hupper, hsmall⟩
    · obtain ⟨hafter, hupper, hsmall⟩ := ih hupper hfound
      exact ⟨hlower.trans hafter, hupper, hsmall⟩

/-- A function that is nowhere greater is small further up. -/
theorem bisect_mono {fuel : ℕ} {s t : K} (hle : lower ≤ upper) (hfg : ∀ x, g x ≤ f x)
    (hs : bisect f eps fuel lower upper = some s) (ht : bisect g eps fuel lower upper = some t) :
    s ≤ t := by
  induction fuel generalizing lower upper with
  | zero => cases hs
  | succ fuel ih =>
    obtain ⟨hlower, hupper⟩ := middle_mem hle
    have hmiddle := hfg ((lower + upper) / 2)
    rw [bisect] at hs ht
    split_ifs at hs ht with hsmall hsmall' hpositive' hpositive hsmall' hpositive' hsmall' hpositive'
    · exact ((Option.some.inj hs).symm.trans (Option.some.inj ht)).le
    · exact absurd (abs_lt.mpr ⟨by linarith [(abs_lt.mp hsmall).1, (abs_nonneg _).trans_lt hsmall],
        hmiddle.trans_lt (abs_lt.mp hsmall).2⟩) hsmall'
    · exact Option.some.inj hs ▸ (bisect_some hupper ht).1
    · exact Option.some.inj ht ▸ (bisect_some hlower hs).2.1
    · exact ih hlower hs ht
    · exact (bisect_some hlower hs).2.1.trans (bisect_some hupper ht).1
    · exact absurd (abs_lt.mpr ⟨(abs_lt.mp hsmall').1.trans_le hmiddle,
        (not_lt.mp hpositive).trans_lt ((abs_nonneg _).trans_lt hsmall')⟩) hsmall
    · exact absurd (hpositive'.trans_le hmiddle) hpositive
    · exact ih hupper hs ht

/-- Around a sign change, as many halvings are enough as make the rise small. -/
theorem bisect_of_pow {bound : K} {n fuel : ℕ} (hfuel : n < fuel) (hle : lower ≤ upper)
    (hlower : f lower ≤ 0) (hupper : 0 ≤ f upper)
    (hrise : ∀ s t, lower ≤ s → s ≤ t → t ≤ upper → f t - f s ≤ bound * (t - s))
    (hsmall : bound * (upper - lower) < eps * 2 ^ n) :
    ∃ t, bisect f eps fuel lower upper = some t := by
  induction n generalizing lower upper fuel with
  | zero =>
    obtain ⟨fuel, rfl⟩ := Nat.exists_eq_succ_of_ne_zero hfuel.ne'
    obtain ⟨hafter, hbefore⟩ := middle_mem hle
    have hleft := hrise _ _ le_rfl hafter hbefore
    have hright := hrise _ _ hafter hbefore le_rfl
    have hwhole := hrise _ _ le_rfl hle le_rfl
    have hhalf : (lower + upper) / 2 - lower = (upper - lower) / 2 ∧
        upper - (lower + upper) / 2 = (upper - lower) / 2 := by
      constructor <;> ring
    rw [hhalf.1] at hleft
    rw [hhalf.2] at hright
    have hmiddle : |f ((lower + upper) / 2)| < eps := by
      rw [abs_lt]
      constructor <;> linarith
    exact ⟨_, by rw [bisect, if_pos hmiddle]⟩
  | succ n ih =>
    obtain ⟨fuel, rfl⟩ := Nat.exists_eq_succ_of_ne_zero (by omega : fuel ≠ 0)
    obtain ⟨hafter, hbefore⟩ := middle_mem hle
    rw [bisect]
    split_ifs with hstop hpositive
    · exact ⟨_, rfl⟩
    · refine ih (by omega) hafter hlower hpositive.le
        (fun s t hs hst ht => hrise s t hs hst (ht.trans hbefore)) ?_
      rw [pow_succ] at hsmall
      linarith
    · refine ih (by omega) hbefore (not_lt.mp hpositive) hupper
        (fun s t hs hst ht => hrise s t (hafter.trans hs) hst ht) ?_
      rw [pow_succ] at hsmall
      linarith

omit [IsStrictOrderedRing K] in
theorem bisect_le {fuel more : ℕ} {t : K} (hle : fuel ≤ more)
    (hfound : bisect f eps fuel lower upper = some t) :
    bisect f eps more lower upper = some t := by
  induction fuel generalizing lower upper more with
  | zero => cases hfound
  | succ fuel ih =>
    obtain ⟨more, rfl⟩ := Nat.exists_eq_succ_of_ne_zero (by omega : more ≠ 0)
    rw [bisect] at hfound ⊢
    split_ifs at hfound ⊢
    · exact hfound
    · exact ih (by omega) hfound
    · exact ih (by omega) hfound

theorem exists_bisect [Archimedean K] {bound : K} (heps : 0 < eps) (hle : lower ≤ upper)
    (hlower : f lower ≤ 0) (hupper : 0 ≤ f upper)
    (hrise : ∀ s t, lower ≤ s → s ≤ t → t ≤ upper → f t - f s ≤ bound * (t - s)) :
    ∃ n t, ∀ fuel > n, bisect f eps fuel lower upper = some t := by
  obtain ⟨n, hn⟩ := pow_unbounded_of_one_lt (bound * (upper - lower) / eps) one_lt_two
  rw [div_lt_iff₀ heps, mul_comm _ eps] at hn
  obtain ⟨t, ht⟩ := bisect_of_pow n.lt_succ_self hle hlower hupper hrise hn
  exact ⟨n, t, fun _ hfuel => bisect_le hfuel ht⟩

end AutowareUniverse.Library.Bisection
