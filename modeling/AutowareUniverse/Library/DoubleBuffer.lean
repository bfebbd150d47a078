import Mathlib.Data.List.Pairwise

/-!
# Two buffers that shift

Values arrive under keys.  Each key has a place in the current cycle and one in the next
cycle; what arrives for a taken place waits in the next cycle, where the newest value stays.
A cycle is published as a whole, and then the next one becomes current.  Values are ranked
by their arrival.
-/

namespace AutowareUniverse.Library.DoubleBuffer

variable {κ α : Type*}

/-- The values of the current cycle and those that wait for the next one. -/
structure Buffers (κ α : Type*) where
  current : κ → Option α
  next : κ → Option α

def Buffers.Held (buffers : Buffers κ α) (key : κ) (value : α) : Prop :=
  buffers.current key = some value ∨ buffers.next key = some value

structure Lists (entries : List (κ × α)) (values : κ → Option α) : Prop where
  mem : ∀ key value, (key, value) ∈ entries ↔ values key = some value
  nodup : (entries.map Prod.fst).Nodup

variable {values : κ → Option α}

theorem Lists.pairwise {entries : List (κ × α)} (hentries : Lists entries values) (rank : α → Nat) :
    entries.Pairwise fun earlier later =>
      earlier.1 = later.1 → rank earlier.2 < rank later.2 := by
  have hnodup := hentries.nodup
  rw [List.Nodup, List.pairwise_map] at hnodup
  exact hnodup.imp fun hne heq => absurd heq hne

section

variable [DecidableEq κ]

def Buffers.store (key : κ) (value : α) (buffers : Buffers κ α) : Buffers κ α :=
  { buffers with current := Function.update buffers.current key (some value) }

def Buffers.wait (key : κ) (value : α) (buffers : Buffers κ α) : Buffers κ α :=
  { buffers with next := Function.update buffers.next key (some value) }

variable {value found : α} {key other : κ}

theorem update_eq_some (hfound : Function.update values key (some value) other = some found) :
    other = key ∧ found = value ∨ other ≠ key ∧ values other = some found := by
  by_cases hkey : other = key
  · subst hkey
    rw [Function.update_self, Option.some.injEq] at hfound
    exact Or.inl ⟨rfl, hfound.symm⟩
  · rw [Function.update_of_ne hkey] at hfound
    exact Or.inr ⟨hkey, hfound⟩

theorem Buffers.held_store {buffers : Buffers κ α}
    (hheld : (buffers.store key value).Held other found) :
    other = key ∧ found = value ∨ buffers.Held other found := by
  rcases hheld with hcurrent | hnext
  · exact (update_eq_some hcurrent).imp_right fun hold => Or.inl hold.2
  · exact Or.inr (Or.inr hnext)

theorem Buffers.held_wait {buffers : Buffers κ α}
    (hheld : (buffers.wait key value).Held other found) :
    other = key ∧ found = value ∨ buffers.Held other found := by
  rcases hheld with hcurrent | hnext
  · exact Or.inr (Or.inl hcurrent)
  · exact (update_eq_some hnext).imp_right fun hold => Or.inr hold.2

/-- A step: what is received and what is published. -/
inductive Shift : Buffers κ α → Option (κ × α) → List (κ × α) → Buffers κ α → Prop where
  | keep (buffers : Buffers κ α) : Shift buffers none [] buffers
  | store {buffers : Buffers κ α} {key : κ} (value : α) (hfree : buffers.current key = none) :
      Shift buffers (some (key, value)) [] (buffers.store key value)
  | wait {buffers : Buffers κ α} {key : κ} {older : α} (value : α)
      (htaken : buffers.current key = some older) :
      Shift buffers (some (key, value)) [] (buffers.wait key value)
  | complete {buffers : Buffers κ α} {key : κ} {value : α} {entries : List (κ × α)}
      (hfree : buffers.current key = none)
      (hentries : Lists entries fun other =>
        (buffers.next other).or ((buffers.store key value).current other)) :
      Shift buffers (some (key, value)) entries ⟨fun _ => none, fun _ => none⟩
  | flush {buffers : Buffers κ α} {entries : List (κ × α)}
      (hentries : Lists entries buffers.current) :
      Shift buffers none entries ⟨buffers.next, fun _ => none⟩

variable {buffers after : Buffers κ α} {received : Option (κ × α)} {entries : List (κ × α)}

theorem Shift.held_before (hshift : Shift buffers received entries after) {key : κ} {value : α}
    (hheld : after.Held key value) :
    buffers.Held key value ∨ received = some (key, value) := by
  cases hshift with
  | keep => exact Or.inl hheld
  | store new hfree =>
    rcases Buffers.held_store hheld with ⟨rfl, rfl⟩ | hold
    · exact Or.inr rfl
    · exact Or.inl hold
  | wait new htaken =>
    rcases Buffers.held_wait hheld with ⟨rfl, rfl⟩ | hold
    · exact Or.inr rfl
    · exact Or.inl hold
  | complete hfree hentries => rcases hheld with hnone | hnone <;> cases hnone
  | flush hentries =>
    rcases hheld with hnext | hnone
    · exact Or.inl (Or.inr hnext)
    · cases hnone

/-- What is published by a step was held or has been received. -/
theorem Shift.entry_before (hshift : Shift buffers received entries after) {key : κ} {value : α}
    (hentry : (key, value) ∈ entries) :
    buffers.Held key value ∨ received = some (key, value) := by
  cases hshift with
  | keep => cases hentry
  | store new hfree => cases hentry
  | wait new htaken => cases hentry
  | complete hfree hentries =>
    rcases Option.or_eq_some_iff.mp ((hentries.mem _ _).mp hentry) with hnext | ⟨-, hcurrent⟩
    · exact Or.inl (Or.inr hnext)
    · rcases update_eq_some hcurrent with ⟨rfl, rfl⟩ | ⟨-, hold⟩
      · exact Or.inr rfl
      · exact Or.inl (Or.inl hold)
  | flush hentries => exact Or.inl (Or.inl ((hentries.mem _ _).mp hentry))

end

/-- What holds of the buffers after `count` arrivals, the last publication having come after
`last` of them, with everything that has been published. -/
structure Ordered (rank : α → Nat) (count last : Nat) (buffers : Buffers κ α)
    (published : List (κ × α)) : Prop where
  waiting : ∀ key value, buffers.next key = some value →
    ∃ older, buffers.current key = some older ∧ rank older < rank value
  arrived : ∀ key value, buffers.Held key value → rank value < count
  gone : ∀ entry ∈ published, rank entry.2 < count
  recent : ∀ key value, buffers.next key = some value → last ≤ rank value
  last_le : last ≤ count
  sorted : published.Pairwise fun earlier later =>
    earlier.1 = later.1 → rank earlier.2 < rank later.2
  later : ∀ entry ∈ published, ∀ value, buffers.Held entry.1 value → rank entry.2 < rank value

namespace Ordered

variable {rank : α → Nat} {count last : Nat} {buffers : Buffers κ α}
variable {published entries : List (κ × α)}

theorem empty (rank : α → Nat) :
    Ordered rank 0 0 (⟨fun _ => none, fun _ => none⟩ : Buffers κ α) [] where
  waiting key value hnext := by cases hnext
  arrived key value hheld := by rcases hheld with h | h <;> cases h
  gone entry hentry := by cases hentry
  recent key value hnext := by cases hnext
  last_le := Nat.le_refl 0
  sorted := List.Pairwise.nil
  later entry hentry := by cases hentry

/-- A publication behind everything that was published keeps the order. -/
theorem sorted_append (hordered : Ordered rank count last buffers published)
    (hentries : Lists entries values)
    (hvalues : ∀ key value, values key = some value → buffers.Held key value ∨ rank value = count) :
    (published ++ entries).Pairwise fun earlier later =>
      earlier.1 = later.1 → rank earlier.2 < rank later.2 := by
  rw [List.pairwise_append]
  refine ⟨hordered.sorted, hentries.pairwise rank, ?_⟩
  rintro entry hentry ⟨key, value⟩ hmem rfl
  rcases hvalues entry.1 value ((hentries.mem _ _).mp hmem) with hheld | hnew
  · exact hordered.later entry hentry value hheld
  · exact hnew ▸ hordered.gone entry hentry

section

variable [DecidableEq κ] (hordered : Ordered rank count last buffers published)

include hordered

theorem store {key : κ} {value : α}
    (hrank : rank value = count) (hfree : buffers.current key = none) :
    Ordered rank (count + 1) last (buffers.store key value) published := by
  constructor
  · intro other waiting hnext
    obtain ⟨older, holder, hlt⟩ := hordered.waiting other waiting hnext
    have hne : other ≠ key := by
      rintro rfl
      rw [hfree] at holder
      cases holder
    exact ⟨older, (Function.update_of_ne hne _ _).trans holder, hlt⟩
  · intro other held hheld
    rcases Buffers.held_store hheld with ⟨-, rfl⟩ | hold
    · omega
    · exact Nat.lt_succ_of_lt (hordered.arrived other held hold)
  · exact fun entry hentry => Nat.lt_succ_of_lt (hordered.gone entry hentry)
  · exact hordered.recent
  · exact Nat.le_succ_of_le hordered.last_le
  · exact hordered.sorted
  · intro entry hentry held hheld
    rcases Buffers.held_store hheld with ⟨-, rfl⟩ | hold
    · exact hrank ▸ hordered.gone entry hentry
    · exact hordered.later entry hentry held hold

theorem wait {key : κ} {older value : α}
    (hrank : rank value = count) (htaken : buffers.current key = some older) :
    Ordered rank (count + 1) last (buffers.wait key value) published := by
  constructor
  · intro other waiting hnext
    rcases update_eq_some hnext with ⟨rfl, rfl⟩ | ⟨-, hold⟩
    · exact ⟨older, htaken, hrank ▸ hordered.arrived other older (Or.inl htaken)⟩
    · exact hordered.waiting other waiting hold
  · intro other held hheld
    rcases Buffers.held_wait hheld with ⟨-, rfl⟩ | hold
    · omega
    · exact Nat.lt_succ_of_lt (hordered.arrived other held hold)
  · exact fun entry hentry => Nat.lt_succ_of_lt (hordered.gone entry hentry)
  · intro other waiting hnext
    rcases update_eq_some hnext with ⟨rfl, rfl⟩ | ⟨-, hold⟩
    · exact hrank ▸ hordered.last_le
    · exact hordered.recent other waiting hold
  · exact Nat.le_succ_of_le hordered.last_le
  · exact hordered.sorted
  · intro entry hentry held hheld
    rcases Buffers.held_wait hheld with ⟨-, rfl⟩ | hold
    · exact hrank ▸ hordered.gone entry hentry
    · exact hordered.later entry hentry held hold

theorem complete {key : κ} {value : α}
    {last' : Nat} (hrank : rank value = count) (hlast : last' ≤ count + 1)
    (hentries : Lists entries fun other =>
      (buffers.next other).or ((buffers.store key value).current other)) :
    Ordered rank (count + 1) last' ⟨fun _ => none, fun _ => none⟩ (published ++ entries) := by
  have hvalues : ∀ other found,
      (buffers.next other).or ((buffers.store key value).current other) = some found →
      buffers.Held other found ∨ rank found = count := by
    intro other found hfound
    rcases Option.or_eq_some_iff.mp hfound with hnext | ⟨-, hcurrent⟩
    · exact Or.inl (Or.inr hnext)
    · rcases update_eq_some hcurrent with ⟨-, rfl⟩ | ⟨-, hold⟩
      · exact Or.inr hrank
      · exact Or.inl (Or.inl hold)
  constructor
  · intro other found hnext
    cases hnext
  · rintro other found (hnone | hnone) <;> cases hnone
  · intro entry hentry
    rcases List.mem_append.mp hentry with hold | hnew
    · exact Nat.lt_succ_of_lt (hordered.gone entry hold)
    · rcases hvalues entry.1 entry.2 ((hentries.mem _ _).mp hnew) with hheld | hcount
      · exact Nat.lt_succ_of_lt (hordered.arrived _ _ hheld)
      · omega
  · intro other found hnext
    cases hnext
  · exact hlast
  · exact hordered.sorted_append hentries hvalues
  · rintro entry - found (hnone | hnone) <;> cases hnone

end

theorem flush (hordered : Ordered rank count last buffers published) {last' : Nat}
    (hlast : last' ≤ count) (hentries : Lists entries buffers.current) :
    Ordered rank count last' ⟨buffers.next, fun _ => none⟩ (published ++ entries) := by
  constructor
  · intro other found hnext
    cases hnext
  · rintro other found (hcurrent | hnone)
    · exact hordered.arrived other found (Or.inr hcurrent)
    · cases hnone
  · intro entry hentry
    rcases List.mem_append.mp hentry with hold | hnew
    · exact hordered.gone entry hold
    · exact hordered.arrived entry.1 entry.2 (Or.inl ((hentries.mem _ _).mp hnew))
  · intro other found hnext
    cases hnext
  · exact hlast
  · exact hordered.sorted_append hentries fun key value hvalue => Or.inl (Or.inl hvalue)
  · rintro entry hentry found (hcurrent | hnone)
    · rcases List.mem_append.mp hentry with hold | hnew
      · exact hordered.later entry hold found (Or.inr hcurrent)
      · obtain ⟨older, holder, hlt⟩ := hordered.waiting entry.1 found hcurrent
        rw [(hentries.mem _ _).mp hnew] at holder
        cases holder
        exact hlt
    · cases hnone

variable [DecidableEq κ] {after : Buffers κ α} {received : Option (κ × α)}

/-- A step keeps the order. -/
theorem shift (hordered : Ordered rank count last buffers published)
    (hshift : Shift buffers received entries after)
    (hrank : ∀ entry ∈ received, rank entry.2 = count) {last' : Nat}
    (hlast : last' ≤ count + received.toList.length) (hsame : entries = [] → last' = last) :
    Ordered rank (count + received.toList.length) last' after (published ++ entries) := by
  cases hshift with
  | keep =>
    rw [hsame rfl, List.append_nil]
    exact hordered
  | store value hfree =>
    rw [hsame rfl, List.append_nil]
    exact hordered.store (hrank _ rfl) hfree
  | wait value htaken =>
    rw [hsame rfl, List.append_nil]
    exact hordered.wait (hrank _ rfl) htaken
  | complete hfree hentries => exact hordered.complete (hrank _ rfl) hlast hentries
  | flush hentries => exact hordered.flush hlast hentries

/-- What a step does to a value: it is held on, or published, or a newer value of its key has
come since the last publication. -/
theorem shift_fate (hordered : Ordered rank count last buffers published)
    (hshift : Shift buffers received entries after)
    (hrank : ∀ entry ∈ received, rank entry.2 = count) {key : κ} {value : α}
    (hvalue : buffers.Held key value ∨ received = some (key, value)) :
    after.Held key value ∨ (key, value) ∈ entries ∨
      ∃ newer, rank value < rank newer ∧ last ≤ rank newer ∧
        (buffers.next key = some newer ∨ received = some (key, newer)) := by
  cases hshift with
  | keep =>
    rcases hvalue with hheld | hnone
    · exact Or.inl hheld
    · cases hnone
  | @store free new hfree =>
    left
    rcases hvalue with (hcurrent | hnext) | hnew
    · have hne : key ≠ free := by
        rintro rfl
        rw [hfree] at hcurrent
        cases hcurrent
      exact Or.inl ((Function.update_of_ne hne _ _).trans hcurrent)
    · exact Or.inr hnext
    · cases hnew
      exact Or.inl (Function.update_self _ _ _)
  | @wait taken older new htaken =>
    rcases hvalue with (hcurrent | hnext) | hnew
    · exact Or.inl (Or.inl hcurrent)
    · by_cases hkey : key = taken
      · subst hkey
        have hcount : rank new = count := hrank (key, new) rfl
        have hlt := hordered.arrived key value (Or.inr hnext)
        have hlast := hordered.last_le
        exact Or.inr (Or.inr ⟨new, by omega, by omega, Or.inr rfl⟩)
      · exact Or.inl (Or.inr ((Function.update_of_ne hkey _ _).trans hnext))
    · cases hnew
      exact Or.inl (Or.inr (Function.update_self _ _ _))
  | @complete free new entries hfree hentries =>
    right
    have hnotNext : buffers.next free = none := by
      by_contra hnext
      obtain ⟨waiting, hwaiting⟩ := Option.ne_none_iff_exists'.mp hnext
      obtain ⟨older, holder, -⟩ := hordered.waiting free waiting hwaiting
      rw [hfree] at holder
      cases holder
    rcases hvalue with (hcurrent | hnext) | hnew
    · cases hwaiting : buffers.next key with
      | some newer =>
        obtain ⟨older, holder, hlt⟩ := hordered.waiting key newer hwaiting
        rw [hcurrent] at holder
        cases holder
        exact Or.inr ⟨newer, hlt, hordered.recent key newer hwaiting, Or.inl rfl⟩
      | none =>
        have hne : key ≠ free := by
          rintro rfl
          rw [hfree] at hcurrent
          cases hcurrent
        refine Or.inl ((hentries.mem _ _).mpr ?_)
        rw [hwaiting, Option.none_or]
        exact (Function.update_of_ne hne _ _).trans hcurrent
    · refine Or.inl ((hentries.mem _ _).mpr ?_)
      rw [hnext, Option.some_or]
    · cases hnew
      refine Or.inl ((hentries.mem _ _).mpr ?_)
      rw [hnotNext, Option.none_or]
      exact Function.update_self _ _ _
  | flush hentries =>
    rcases hvalue with (hcurrent | hnext) | hnew
    · exact Or.inr (Or.inl ((hentries.mem _ _).mpr hcurrent))
    · exact Or.inl (Or.inl hnext)
    · cases hnew

end Ordered

end AutowareUniverse.Library.DoubleBuffer
