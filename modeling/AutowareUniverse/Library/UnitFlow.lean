import AutowareUniverse.Library.Numerals
import Mathlib.Algebra.BigOperators.Ring.Finset
import Mathlib.Data.Fintype.BigOperators
import Mathlib.Tactic.Ring

/-!
# Flows that are increased by units

A flow gives each pair of nodes the amount that is sent from the first to the
second, less what is sent back.  Sending a unit along an edge changes the net
flow of its two ends only, and sending it along a path that of the two ends of
the path.
-/

namespace AutowareUniverse.Library.UnitFlow

variable {V : Type*}

section

variable [Fintype V]

/-- What a node sends, less what it receives. -/
def net (flow : V → V → ℤ) (v : V) : ℤ := ∑ w, flow v w

end

variable [DecidableEq V]

structure IsFlow (capacity flow : V → V → ℤ) : Prop where
  skew : ∀ u v, flow u v = -flow v u
  le : ∀ u v, flow u v ≤ capacity u v

variable (flow : V → V → ℤ)

/-- Send one unit from `u` to `v`. -/
def push (u v a b : V) : ℤ :=
  flow a b + (if a = u ∧ b = v then 1 else 0) - (if a = v ∧ b = u then 1 else 0)

variable {u v : V}

theorem push_self (hne : u ≠ v) :
    push flow u v u v = flow u v + 1 := by
  simp [push, hne]

theorem push_swap (hne : u ≠ v) :
    push flow u v v u = flow v u - 1 := by
  simp [push, hne.symm]

theorem push_of_ne {u v a b : V} (hforward : ¬ (a = u ∧ b = v))
    (hbackward : ¬ (a = v ∧ b = u)) : push flow u v a b = flow a b := by
  simp [push, hforward, hbackward]

variable {capacity flow : V → V → ℤ}

theorem IsFlow.push (hflow : IsFlow capacity flow) (hne : u ≠ v) (hroom : flow u v < capacity u v) :
    IsFlow capacity (UnitFlow.push flow u v) where
  skew := by
    intro a b
    unfold UnitFlow.push
    rw [hflow.skew a b]
    simp only [and_comm]
    ring
  le := by
    intro a b
    by_cases hforward : a = u ∧ b = v
    · obtain ⟨rfl, rfl⟩ := hforward
      rw [push_self flow hne]
      omega
    · have hle := hflow.le a b
      unfold UnitFlow.push
      rw [if_neg hforward]
      split <;> omega

/-- Send one unit along a path that is given from its end to its start. -/
def pushPath (flow : V → V → ℤ) : List V → V → V → ℤ
  | v :: u :: rest => pushPath (push flow u v) (u :: rest)
  | _ => flow

variable {path : List V}

/-- Room on a path is not taken by an edge to a node that is not on it. -/
theorem isChain_push (hnot : v ∉ path) (hchain : path.IsChain fun w w' => flow w' w < capacity w' w) :
    path.IsChain fun w w' => push flow u v w' w < capacity w' w := by
  refine hchain.imp_of_mem_imp fun w w' hw hw' hroom => ?_
  rw [push_of_ne flow]
  · exact hroom
  · rintro ⟨_, rfl⟩
    exact hnot hw
  · rintro ⟨rfl, _⟩
    exact hnot hw'

theorem IsFlow.pushPath (hflow : IsFlow capacity flow) (hnodup : path.Nodup)
    (hchain : path.IsChain fun w w' => flow w' w < capacity w' w) :
    IsFlow capacity (UnitFlow.pushPath flow path) := by
  induction path generalizing flow with
  | nil => exact hflow
  | cons first rest ih =>
    cases rest with
    | nil => exact hflow
    | cons second rest =>
      obtain ⟨hnot, hrest⟩ := List.nodup_cons.mp hnodup
      obtain ⟨hroom, hchain⟩ := List.isChain_cons_cons.mp hchain
      have hne : second ≠ first := by
        rintro rfl
        exact hnot List.mem_cons_self
      exact ih (hflow.push hne hroom) hrest (isChain_push hnot hchain)

theorem of_pushPath_lt (related : V → V → Prop) {flow : V → V → ℤ}
    (hchain : path.IsChain fun w w' => related w' w) {a b : V}
    (hless : pushPath flow path a b < flow a b) : related b a := by
  induction path generalizing flow with
  | nil => exact absurd hless (lt_irrefl _)
  | cons first rest ih =>
    cases rest with
    | nil => exact absurd hless (lt_irrefl _)
    | cons second rest =>
      obtain ⟨hrelated, hchain⟩ := List.isChain_cons_cons.mp hchain
      by_cases hturned : a = first ∧ b = second
      · obtain ⟨rfl, rfl⟩ := hturned
        exact hrelated
      · refine ih hchain (hless.trans_le ?_)
        unfold push
        rw [if_neg hturned]
        split <;> omega

variable [Fintype V]

theorem net_push (flow : V → V → ℤ) (u v a : V) : net (push flow u v) a =
      net flow a + (if a = u then 1 else 0) - (if a = v then 1 else 0) := by
  unfold net push
  rw [Finset.sum_sub_distrib, Finset.sum_add_distrib]
  have hsingle (x y : V) : ∑ b, (if a = x ∧ b = y then (1 : ℤ) else 0) =
      if a = x then 1 else 0 := by
    by_cases hx : a = x
    · simp [hx]
    · simp [hx]
  rw [hsingle, hsingle]

theorem net_pushPath (flow : V → V → ℤ) (first : V) (rest : List V) (a : V) :
    net (pushPath flow (first :: rest)) a =
      net flow a + (if a = (first :: rest).getLast (List.cons_ne_nil _ _) then 1 else 0) -
        (if a = first then 1 else 0) := by
  induction rest generalizing flow first with
  | nil =>
    rw [pushPath, List.getLast_singleton]
    · ring
    · intro v u rest heq
      cases heq
  | cons second rest ih =>
    rw [pushPath, ih (push flow second first), net_push, List.getLast_cons (List.cons_ne_nil _ _)]
    ring

end AutowareUniverse.Library.UnitFlow
