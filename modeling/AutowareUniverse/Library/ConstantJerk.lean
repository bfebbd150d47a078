import AutowareUniverse.Library.Numerals
import Mathlib.Algebra.Order.Field.Basic
import Mathlib.Tactic.FieldSimp
import Mathlib.Tactic.Linarith
import Mathlib.Tactic.Ring

/-!
# Motion at constant jerk

A motion on a line whose jerk is constant in each of some phases: where it is
after a time, after all phases, and while they are executed.
-/

namespace AutowareUniverse.Library.ConstantJerk

@[ext]
structure Motion (K : Type) where
  position : K
  velocity : K
  acceleration : K
  deriving DecidableEq

variable {K : Type} [Field K]

def advance (jerk time : K) (motion : Motion K) : Motion K where
  position := motion.position + motion.velocity * time +
    1 / 2 * motion.acceleration * time * time + 1 / 6 * jerk * time * time * time
  velocity := motion.velocity + motion.acceleration * time + 1 / 2 * jerk * time * time
  acceleration := motion.acceleration + jerk * time

@[simp] theorem advance_zero (jerk : K) (motion : Motion K) : advance jerk 0 motion = motion := by
  simp [advance]

theorem acceleration_advance_div {jerk : K} (hjerk : jerk ≠ 0) (wanted : K) (motion : Motion K) :
    (advance jerk ((wanted - motion.acceleration) / jerk) motion).acceleration = wanted := by
  simp only [advance]
  rw [mul_div_cancel₀ _ hjerk, add_sub_cancel]

def run (phases : List (K × K)) (motion : Motion K) : Motion K :=
  phases.foldl (fun motion phase => advance phase.1 phase.2 motion) motion

@[simp] theorem run_nil (motion : Motion K) : run [] motion = motion := rfl

@[simp] theorem run_cons (phase : K × K) (phases : List (K × K)) (motion : Motion K) :
    run (phase :: phases) motion = run phases (advance phase.1 phase.2 motion) := rfl

def duration (phases : List (K × K)) : K := (phases.map (·.2)).sum

@[simp] theorem duration_nil : duration ([] : List (K × K)) = 0 := rfl

@[simp] theorem duration_cons (phase : K × K) (phases : List (K × K)) :
    duration (phase :: phases) = phase.2 + duration phases := rfl

variable {phases : List (K × K)}

theorem run_of_times_zero (hzero : ∀ phase ∈ phases, phase.2 = 0)
    (motion : Motion K) : run phases motion = motion := by
  induction phases generalizing motion with
  | nil => rfl
  | cons phase phases ih =>
    rw [List.forall_mem_cons] at hzero
    rw [run_cons, hzero.1, advance_zero]
    exact ih hzero.2 motion

/-- The motion at a time of the execution.  Behind the end it stays. -/
def during [LinearOrder K] : List (K × K) → K → Motion K → Motion K
  | [], _, motion => motion
  | (jerk, time) :: phases, t, motion =>
    if time < t then during phases (t - time) (advance jerk time motion)
    else advance jerk t motion

variable [LinearOrder K] [IsStrictOrderedRing K]

theorem velocity_advance {jerk : K} (hjerk : jerk ≠ 0) (time : K) (motion : Motion K) :
    (advance jerk time motion).velocity = motion.velocity +
      ((advance jerk time motion).acceleration ^ 2 - motion.acceleration ^ 2) / (2 * jerk) := by
  simp only [advance]
  field_simp
  ring

theorem le_acceleration_advance {bound jerk time t : K} {motion : Motion K}
    (hbegin : bound ≤ motion.acceleration)
    (hend : bound ≤ (advance jerk time motion).acceleration) (ht : 0 ≤ t) (hle : t ≤ time) :
    bound ≤ (advance jerk t motion).acceleration := by
  simp only [advance] at hend ⊢
  rcases le_or_gt 0 jerk with hjerk | hjerk
  · linarith [mul_nonneg hjerk ht]
  · linarith [mul_le_mul_of_nonpos_left hle hjerk.le]

theorem duration_nonneg (htimes : ∀ phase ∈ phases, 0 ≤ phase.2) :
    0 ≤ duration phases := by
  induction phases with
  | nil => exact le_rfl
  | cons phase phases ih =>
    rw [List.forall_mem_cons] at htimes
    exact add_nonneg htimes.1 (ih htimes.2)

theorem times_zero_of_duration (htimes : ∀ phase ∈ phases, 0 ≤ phase.2)
    (hduration : duration phases ≤ 0) : ∀ phase ∈ phases, phase.2 = 0 := by
  induction phases with
  | nil => exact List.forall_mem_nil _
  | cons phase phases ih =>
    rw [List.forall_mem_cons] at htimes
    rw [duration_cons] at hduration
    have hrest := duration_nonneg htimes.2
    rw [List.forall_mem_cons]
    exact ⟨le_antisymm (by linarith) htimes.1, ih htimes.2 (by linarith [htimes.1])⟩

section
omit [IsStrictOrderedRing K]

theorem during_zero (htimes : ∀ phase ∈ phases, 0 ≤ phase.2)
    (motion : Motion K) : during phases 0 motion = motion := by
  cases phases with
  | nil => rfl
  | cons phase phases =>
    rw [during, if_neg (htimes phase List.mem_cons_self).not_gt, advance_zero]

theorem during_of_le {jerk time t : K} (phases : List (K × K)) (motion : Motion K)
    (hle : t ≤ time) : during ((jerk, time) :: phases) t motion = advance jerk t motion :=
  if_neg hle.not_gt

/-- From the end of the first phase on, the later ones are executed. -/
theorem during_of_ge {jerk time t : K}
    (htimes : ∀ phase ∈ phases, 0 ≤ phase.2) (motion : Motion K) (hge : time ≤ t) :
    during ((jerk, time) :: phases) t motion =
      during phases (t - time) (advance jerk time motion) := by
  rcases hge.lt_or_eq with hlater | rfl
  · exact if_pos hlater
  · rw [during_of_le phases motion le_rfl, sub_self, during_zero htimes]

end

/-- At the end of the execution all phases are done. -/
theorem during_duration (htimes : ∀ phase ∈ phases, 0 ≤ phase.2)
    (motion : Motion K) : during phases (duration phases) motion = run phases motion := by
  induction phases generalizing motion with
  | nil => rfl
  | cons phase phases ih =>
    rw [List.forall_mem_cons] at htimes
    rw [duration_cons, run_cons, during]
    split
    · rw [add_sub_cancel_left]
      exact ih htimes.2 _
    · rename_i hlast
      have hzero := times_zero_of_duration htimes.2 (by linarith)
      have hduration := duration_nonneg htimes.2
      rw [run_of_times_zero hzero, show phase.2 + duration phases = phase.2 by linarith]

theorem le_acceleration_during {bound : K} {motion : Motion K}
    (hbounds : ∀ i, bound ≤ (run (phases.take i) motion).acceleration) {t : K} (ht : 0 ≤ t)
    (hend : t ≤ duration phases) : bound ≤ (during phases t motion).acceleration := by
  induction phases generalizing motion t with
  | nil => exact hbounds 0
  | cons phase phases ih =>
    rw [during]
    split
    · rename_i hlater
      rw [duration_cons] at hend
      exact ih (fun i => hbounds (i + 1)) (by linarith) (by linarith)
    · rename_i hinside
      exact le_acceleration_advance (hbounds 0) (hbounds 1) ht (not_lt.mp hinside)

end AutowareUniverse.Library.ConstantJerk
