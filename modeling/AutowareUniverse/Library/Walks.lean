import Mathlib.Data.Set.Card
import Mathlib.Order.CompletePartialOrder

/-!
# Walks with finitely many states

A walk goes from a state to the next one until there is none.  Where it can reach finitely
many states only, it ends if and only if it reaches no state that leads back to itself.
-/

namespace AutowareUniverse.Library.FiniteWalks

open Relation

variable {σ : Type} (next : σ → Option σ)

def LeadsTo (state after : σ) : Prop :=
  next state = some after

instance [DecidableEq σ] (state after : σ) : Decidable (LeadsTo next state after) :=
  inferInstanceAs (Decidable (next state = some after))

inductive Ends : σ → Prop where
  | stop {state : σ} (hstop : next state = none) : Ends state
  | step {state after : σ} (hnext : LeadsTo next state after) (hafter : Ends after) : Ends state

/-- No state that the walk reaches leads back to itself. -/
def Acyclic (start : σ) : Prop :=
  ∀ state, ReflTransGen (LeadsTo next) start state → ¬ TransGen (LeadsTo next) state state

variable {next} {start state after : σ}

theorem Ends.of_next (hends : Ends next state) (hnext : LeadsTo next state after) :
    Ends next after := by
  cases hends with
  | stop hstop => exact absurd (hstop.symm.trans hnext) (Option.some_ne_none after).symm
  | step hother hafter =>
    cases Option.some.inj (hother.symm.trans hnext)
    exact hafter

theorem Ends.not_cycle (hends : Ends next state) : ¬ TransGen (LeadsTo next) state state := by
  induction hends with
  | stop hstop =>
    intro hcycle
    obtain ⟨after, hnext, _⟩ := TransGen.head'_iff.mp hcycle
    exact absurd (hstop.symm.trans hnext) (Option.some_ne_none after).symm
  | step hnext _ ih =>
    intro hcycle
    obtain ⟨after, hother, hback⟩ := TransGen.head'_iff.mp hcycle
    cases Option.some.inj (hnext.symm.trans hother)
    exact ih (TransGen.tail' hback hnext)

theorem Ends.of_reach (hends : Ends next start)
    (hreach : ReflTransGen (LeadsTo next) start state) : Ends next state := by
  induction hreach with
  | refl => exact hends
  | tail _ hnext ih => exact ih.of_next hnext

theorem Ends.acyclic (hends : Ends next start) : Acyclic next start :=
  fun _ hreach => (hends.of_reach hreach).not_cycle

theorem Acyclic.of_next (hacyclic : Acyclic next state) (hnext : LeadsTo next state after) :
    Acyclic next after :=
  fun other hreach => hacyclic other (.head hnext hreach)

theorem Acyclic.ahead_ssubset (hacyclic : Acyclic next state) (hnext : LeadsTo next state after) :
    {other | TransGen (LeadsTo next) after other} ⊂
      {other | TransGen (LeadsTo next) state other} := by
  refine ⟨fun other hahead => TransGen.head hnext hahead, fun hsubset => ?_⟩
  exact hacyclic after (.single hnext) (hsubset (TransGen.single hnext))

theorem ends_of_acyclic (hfinite : {other | TransGen (LeadsTo next) start other}.Finite)
    (hacyclic : Acyclic next start) : Ends next start := by
  induction hcount : {other | TransGen (LeadsTo next) start other}.ncard
    using Nat.strong_induction_on generalizing start with
  | _ count ih =>
    cases hnext : next start with
    | none => exact .stop hnext
    | some after =>
      have hahead := hacyclic.ahead_ssubset hnext
      refine .step hnext (ih _ ?_ (hfinite.subset hahead.subset) (hacyclic.of_next hnext) rfl)
      rw [← hcount]
      exact Set.ncard_lt_ncard hahead hfinite

theorem ends_iff_acyclic (hfinite : {other | TransGen (LeadsTo next) start other}.Finite) :
    Ends next start ↔ Acyclic next start :=
  ⟨Ends.acyclic, ends_of_acyclic hfinite⟩

end AutowareUniverse.Library.FiniteWalks

/-!
## Walks that collect what they meet

A walk appends to the path collected so far what the path leads to, until it
leads nowhere.  Where only finitely many values can be met, the walk ends without
having met one of them twice exactly when it never leads back into its own path.
-/

namespace AutowareUniverse.Library.GrowingWalks

variable {α : Type} (next : List α → Option α)

/-- The walk from a path, none if it has not ended after the given rounds. -/
def grow : ℕ → List α → Option (List α)
  | 0, _ => none
  | rounds + 1, path =>
    match next path with
    | none => some path
    | some value => grow rounds (path ++ [value])

/-- The paths that the walk from the empty path goes through. -/
inductive Grows : List α → Prop where
  | start : Grows []
  | step {path : List α} {value : α} (hpath : Grows path)
      (hnext : next path = some value) : Grows (path ++ [value])

def Meets (value : α) : Prop :=
  ∃ path, Grows next path ∧ value ∈ path

/-- Some path of the walk leads to a value that it has already met. -/
def LeadsBack : Prop :=
  ∃ path value, Grows next path ∧ next path = some value ∧ value ∈ path

variable {next}

/-! ## Where the walk ends -/

variable {path result : List α}

theorem grow_spec {rounds : ℕ} (hpath : Grows next path)
    (hgrow : grow next rounds path = some result) :
    Grows next result ∧ next result = none := by
  induction rounds generalizing path with
  | zero => cases hgrow
  | succ rounds ih =>
    rw [grow] at hgrow
    split at hgrow
    · rename_i hnext
      cases hgrow
      exact ⟨hpath, hnext⟩
    · rename_i value hnext
      exact ih (.step hpath hnext) hgrow

/-- Every value of a path is what the path before it leads to. -/
theorem Grows.next_eq {whole path rest : List α} {value : α} (hwhole : Grows next whole)
    (heq : whole = path ++ value :: rest) : next path = some value := by
  induction hwhole generalizing rest with
  | start => simp at heq
  | @step before last _ hnext ih =>
    rcases List.eq_nil_or_concat rest with rfl | ⟨front, final, rfl⟩
    · obtain ⟨rfl, hvalue⟩ := List.append_inj' heq rfl
      cases hvalue
      exact hnext
    · have hsplit : before ++ [last] = (path ++ value :: front) ++ [final] := by
        simpa using heq
      exact ih (List.append_inj' hsplit rfl).1

theorem Grows.prefix_of_end (hpath : Grows next path)
    (hresult : Grows next result) (hend : next result = none) : path <+: result := by
  induction hpath with
  | start => exact List.nil_prefix
  | @step path value _ hnext ih =>
    obtain ⟨rest, rfl⟩ := ih
    cases rest with
    | nil =>
      rw [List.append_nil, hnext] at hend
      cases hend
    | cons first rest =>
      have hfirst := hresult.next_eq rfl
      rw [hnext, Option.some.injEq] at hfirst
      rw [hfirst]
      exact ⟨rest, by simp⟩

theorem eq_of_ends {path other : List α} (hpath : Grows next path)
    (hend : next path = none) (hother : Grows next other) (hotherEnd : next other = none) :
    path = other :=
  (hpath.prefix_of_end hother hotherEnd).eq_of_length_le (hother.prefix_of_end hpath hend).length_le

theorem meets_iff_mem {result : List α} (hresult : Grows next result)
    (hend : next result = none) {value : α} : Meets next value ↔ value ∈ result := by
  constructor
  · rintro ⟨path, hpath, hmem⟩
    exact (hpath.prefix_of_end hresult hend).subset hmem
  · intro hmem
    exact ⟨result, hresult, hmem⟩

/-- The walk begins with what the empty path leads to. -/
theorem head?_eq {result : List α} (hresult : Grows next result)
    (hend : next result = none) : result.head? = next [] := by
  cases result with
  | nil => exact hend.symm
  | cons first rest =>
    have hfirst : next [] = some first := hresult.next_eq rfl
    rw [List.head?_cons, hfirst]

/-- More rounds do not change where the walk ends. -/
theorem grow_mono {rounds more : ℕ} (hle : rounds ≤ more)
    (hgrow : grow next rounds path = some result) :
    grow next more path = some result := by
  induction rounds generalizing path more with
  | zero => cases hgrow
  | succ rounds ih =>
    obtain ⟨more, rfl⟩ : ∃ left, more = left + 1 := ⟨more - 1, by omega⟩
    rw [grow] at hgrow ⊢
    split
    · rename_i hnext
      simpa only [hnext] using hgrow
    · rename_i value hnext
      simp only [hnext] at hgrow
      exact ih (by omega) hgrow

variable {path : List α}

theorem exists_grow_of_length_le {bound : ℕ}
    (hbound : ∀ path, Grows next path → path.length ≤ bound)
    (hpath : Grows next path) : ∃ rounds result, grow next rounds path = some result := by
  induction hleft : bound - path.length generalizing path with
  | zero =>
    cases hnext : next path with
    | none => exact ⟨1, path, by rw [grow, hnext]⟩
    | some value =>
      have hlength := hbound _ (.step hpath hnext)
      rw [List.length_append, List.length_singleton] at hlength
      omega
  | succ left ih =>
    cases hnext : next path with
    | none => exact ⟨1, path, by rw [grow, hnext]⟩
    | some value =>
      obtain ⟨rounds, result, hgrow⟩ := ih (.step hpath hnext) (by
        rw [List.length_append, List.length_singleton]
        omega)
      exact ⟨rounds + 1, result, by rw [grow, hnext]; exact hgrow⟩

/-- What holds of every value that is led to holds of every value of a path. -/
theorem Grows.forall_mem {P : α → Prop} (hstep : ∀ path value, next path = some value → P value)
    (hpath : Grows next path) : ∀ value ∈ path, P value := by
  induction hpath with
  | start => simp
  | step _ hnext ih =>
    intro value hmem
    rcases List.mem_append.mp hmem with hmem | hmem
    · exact ih value hmem
    · rw [List.mem_singleton.mp hmem]
      exact hstep _ _ hnext

theorem Grows.nodup (hback : ¬ LeadsBack next) (hpath : Grows next path) :
    path.Nodup := by
  induction hpath with
  | start => exact List.nodup_nil
  | @step path value hpath hnext ih =>
    have hnew : value ∉ path := fun hmem => hback ⟨path, value, hpath, hnext, hmem⟩
    rw [List.nodup_append_comm]
    exact List.nodup_cons.mpr ⟨hnew, ih⟩

theorem exists_end_nodup_iff {support : List α}
    (hsupport : ∀ path value, next path = some value → value ∈ support) :
    (∃ rounds result, grow next rounds [] = some result ∧ result.Nodup) ↔
      ¬ LeadsBack next := by
  constructor
  · rintro ⟨rounds, result, hgrow, hnodup⟩ ⟨path, value, hpath, hnext, hmem⟩
    obtain ⟨hresult, hend⟩ := grow_spec .start hgrow
    have hprefix := (Grows.step hpath hnext).prefix_of_end hresult hend
    have htwice := hnodup.sublist hprefix.sublist
    rw [List.nodup_append_comm] at htwice
    exact (List.nodup_cons.mp htwice).1 hmem
  · intro hback
    have hbound : ∀ path, Grows next path → path.length ≤ support.length := fun path hpath =>
      (List.subperm_of_subset (hpath.nodup hback) (hpath.forall_mem hsupport)).length_le
    obtain ⟨rounds, result, hgrow⟩ := exists_grow_of_length_le hbound .start
    exact ⟨rounds, result, hgrow, (grow_spec .start hgrow).1.nodup hback⟩

theorem Grows.isChain {R : α → α → Prop} {first : α}
    (hstep : ∀ path value, next path = some value → R (path.getLastD first) value)
    (hpath : Grows next path) : (first :: path).IsChain R := by
  induction hpath with
  | start => exact .singleton first
  | @step path value _ hnext ih =>
    rw [← List.cons_append]
    refine List.isChain_append.mpr ⟨ih, .singleton value, ?_⟩
    intro last hlast other hother
    obtain rfl : value = other := by simpa using hother
    have hlast' : path.getLastD first = last := by
      rw [List.getLast?_cons] at hlast
      simpa [List.getLastD_eq_getLast?] using hlast
    rw [← hlast']
    exact hstep path value hnext

end AutowareUniverse.Library.GrowingWalks
