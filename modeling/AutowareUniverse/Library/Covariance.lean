import Mathlib.LinearAlgebra.Matrix.PosDef

/-!
# The covariance after a measurement

A measurement `C` with noise `R` is weighed by a gain `G` that solves
`G * (R + C * (P * Cᵀ)) = P * Cᵀ`.  The covariance `P - G * (C * P)` is then a sum
of two congruences, and is positive semidefinite without any inverse.
-/

namespace AutowareUniverse.Library.Covariance

open Matrix

variable {K n m : Type*} [Fintype n] [Fintype m]

/-- The covariance in the form of Joseph. -/
theorem sub_gain_mul_eq [CommRing K] [DecidableEq n] {P : Matrix n n K} {C : Matrix m n K}
    {R : Matrix m m K} {G : Matrix n m K} (hgain : G * (R + C * (P * Cᵀ)) = P * Cᵀ) :
    P - G * (C * P) = (1 - G * C) * P * (1 - G * C)ᵀ + G * R * Gᵀ := by
  have hinnovation : G * R * Gᵀ + G * C * P * Cᵀ * Gᵀ = P * Cᵀ * Gᵀ := by
    rw [← hgain, Matrix.mul_add, Matrix.add_mul]
    simp only [Matrix.mul_assoc]
  calc P - G * (C * P)
      = P - G * C * P - P * Cᵀ * Gᵀ + P * Cᵀ * Gᵀ := by
        rw [sub_add_cancel, Matrix.mul_assoc]
    _ = P - G * C * P - P * Cᵀ * Gᵀ + (G * R * Gᵀ + G * C * P * Cᵀ * Gᵀ) := by
        rw [hinnovation]
    _ = (1 - G * C) * P * (1 - G * C)ᵀ + G * R * Gᵀ := by
        rw [transpose_sub, transpose_one, transpose_mul, Matrix.sub_mul, Matrix.mul_sub,
          Matrix.one_mul, Matrix.mul_one, Matrix.sub_mul]
        simp only [Matrix.mul_assoc]
        abel

variable [Field K] [PartialOrder K] [StarRing K] [TrivialStar K]
variable {P : Matrix n n K} {C : Matrix m n K} {R : Matrix m m K}

theorem posSemidef_congruence {A : Matrix m n K} (hP : P.PosSemidef) :
    (A * P * Aᵀ).PosSemidef := by
  have hcongruence := hP.mul_mul_conjTranspose_same A
  rwa [conjTranspose_eq_transpose_of_trivial] at hcongruence

theorem posDef_innovation [IsOrderedAddMonoid K] (hP : P.PosSemidef) (hR : R.PosDef) :
    (R + C * (P * Cᵀ)).PosDef := by
  rw [← Matrix.mul_assoc]
  exact hR.add_posSemidef (posSemidef_congruence hP)

theorem posSemidef_sub_gain_mul [IsOrderedAddMonoid K] {G : Matrix n m K}
    (hP : P.PosSemidef) (hR : R.PosSemidef) (hgain : G * (R + C * (P * Cᵀ)) = P * Cᵀ) :
    (P - G * (C * P)).PosSemidef := by
  classical
  rw [sub_gain_mul_eq hgain]
  exact (posSemidef_congruence hP).add (posSemidef_congruence hR)

end AutowareUniverse.Library.Covariance
