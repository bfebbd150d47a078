import Mathlib.Data.List.Induction
import Mathlib.Data.List.Nodup
import Std.Data.TreeMap.Lemmas

/-!
# Lists searched by a key

The vectors of the components are searched with `std::find_if` for the first
element with a given key, which is then read, changed in place or erased.  The
lemmas say what each of these operations does to a later search.
-/

namespace AutowareUniverse.Library.KeyedList

variable {α κ β : Type*} [DecidableEq κ] (key : α → κ)

/-- The first element with the key, as `std::find_if` finds it. -/
def findKey (k : κ) (values : List α) : Option α :=
  values.find? fun value => decide (key value = k)

def updateKey (k : κ) (change : α → α) : List α → List α
  | [] => []
  | first :: rest =>
    if key first = k then change first :: rest
    else first :: updateKey k change rest

def eraseKey (k : κ) (values : List α) : List α :=
  values.eraseP fun value => decide (key value = k)

def findLastKey (k : κ) (values : List α) : Option α :=
  findKey key k values.reverse

section

@[simp]
theorem findKey_nil (k : κ) : findKey key k ([] : List α) = none := rfl

theorem findKey_cons (k : κ) (first : α) (rest : List α) : findKey key k (first :: rest) =
      if key first = k then some first else findKey key k rest := by
  by_cases hkey : key first = k
  · simp [findKey, hkey]
  · simp [findKey, hkey]

theorem findKey_append (k : κ) (front back : List α) : findKey key k (front ++ back) =
      (findKey key k front).or (findKey key k back) := by
  simp [findKey, List.find?_append]

variable {values : List α} {k : κ}

theorem key_of_findKey {value : α}
    (hfound : findKey key k values = some value) : key value = k := by
  simpa using List.find?_some hfound

theorem mem_of_findKey {value : α} (hfound : findKey key k values = some value) : value ∈ values :=
  List.mem_of_find?_eq_some hfound

theorem exists_findKey (hmem : k ∈ values.map key) :
    ∃ value, findKey key k values = some value := by
  cases hfound : findKey key k values with
  | some value => exact ⟨value, rfl⟩
  | none =>
    refine absurd hmem ?_
    simpa [findKey, List.find?_eq_none] using hfound

theorem findKey_eq_none_iff :
    findKey key k values = none ↔ k ∉ values.map key := by
  simp [findKey, List.find?_eq_none]

theorem findKey_map (change : α → α) (hkey : ∀ value, key (change value) = key value)
    (k : κ) (values : List α) :
    findKey key k (values.map change) = (findKey key k values).map change := by
  induction values with
  | nil => rfl
  | cons first rest ih =>
    rw [List.map_cons, findKey_cons, findKey_cons, hkey, ih]
    split <;> rfl

theorem findKey_filter (keep : α → Bool) (hnodup : (values.map key).Nodup) :
    findKey key k (values.filter keep) = (findKey key k values).filter keep := by
  induction values with
  | nil => rfl
  | cons first rest ih =>
    rw [List.map_cons, List.nodup_cons] at hnodup
    rw [List.filter_cons, findKey_cons]
    by_cases hkey : key first = k
    · have hrest : findKey key k (rest.filter keep) = none := by
        rw [ih hnodup.2, (findKey_eq_none_iff key).mpr (hkey ▸ hnodup.1)]
        rfl
      cases hkeep : keep first with
      | true => simp [findKey_cons, hkey, Option.filter, hkeep]
      | false => simpa [hkey, Option.filter, hkeep] using hrest
    · cases hkeep : keep first with
      | true => simp [findKey_cons, hkey, ih hnodup.2]
      | false => simpa [hkey] using ih hnodup.2

end

section

theorem map_key_updateKey (change : α → α)
    (hkey : ∀ value, key (change value) = key value) (k : κ) (values : List α) :
    (updateKey key k change values).map key = values.map key := by
  induction values with
  | nil => rfl
  | cons first rest ih =>
    unfold updateKey
    split
    · simp [hkey]
    · simp [ih]

theorem findKey_updateKey (change : α → α)
    (hkey : ∀ value, key (change value) = key value) (k other : κ) (values : List α) :
    findKey key other (updateKey key k change values) =
      if other = k then (findKey key k values).map change
      else findKey key other values := by
  induction values with
  | nil => simp [updateKey]
  | cons first rest ih =>
    unfold updateKey
    by_cases hfirst : key first = k
    · by_cases hother : other = k
      · simp [findKey_cons, hkey, hfirst, hother]
      · have hne : k ≠ other := fun heq => hother heq.symm
        simp [findKey_cons, hkey, hfirst, hother, hne]
    · by_cases hother : other = k
      · subst other
        simpa [findKey_cons, hfirst] using ih
      · simp [findKey_cons, hfirst, hother] at ih ⊢
        rw [ih]

variable {values : List α} {change : α → α} {k : κ}

theorem map_updateKey_of_found {view : α → β} {value : α}
    (hfound : findKey key k values = some value) (hview : view (change value) = view value) :
    (updateKey key k change values).map view = values.map view := by
  induction values with
  | nil => rfl
  | cons first rest ih =>
    rw [findKey_cons] at hfound
    unfold updateKey
    split
    · rename_i hkey
      rw [if_pos hkey] at hfound
      cases hfound
      rw [List.map_cons, List.map_cons, hview]
    · rename_i hkey
      rw [if_neg hkey] at hfound
      rw [List.map_cons, List.map_cons, ih hfound]

theorem mem_updateKey {value updated : α} (hfound : findKey key k values = some value)
    (hmem : updated ∈ updateKey key k change values) :
    updated = change value ∨ updated ∈ values := by
  induction values with
  | nil => cases hmem
  | cons first rest ih =>
    rw [findKey_cons] at hfound
    unfold updateKey at hmem
    split at hmem
    · rename_i hkey
      rw [if_pos hkey] at hfound
      cases hfound
      rcases List.mem_cons.mp hmem with heq | hrest
      · exact .inl heq
      · exact .inr (List.mem_cons_of_mem _ hrest)
    · rename_i hkey
      rw [if_neg hkey] at hfound
      rcases List.mem_cons.mp hmem with heq | hrest
      · exact .inr (heq ▸ List.mem_cons_self ..)
      · exact (ih hfound hrest).imp_right (List.mem_cons_of_mem _)

theorem mem_updateKey_of_ne {value : α}
    (hmem : value ∈ values) (hne : key value ≠ k) : value ∈ updateKey key k change values := by
  induction values with
  | nil => cases hmem
  | cons first rest ih =>
    unfold updateKey
    split
    · rename_i hkey
      rcases List.mem_cons.mp hmem with rfl | hrest
      · exact absurd hkey hne
      · exact List.mem_cons_of_mem _ hrest
    · rcases List.mem_cons.mp hmem with rfl | hrest
      · exact List.mem_cons_self ..
      · exact List.mem_cons_of_mem _ (ih hrest)

theorem change_mem_updateKey {value : α} (hfound : findKey key k values = some value) :
    change value ∈ updateKey key k change values := by
  induction values with
  | nil => cases hfound
  | cons first rest ih =>
    rw [findKey_cons] at hfound
    unfold updateKey
    split
    · rename_i hkey
      rw [if_pos hkey] at hfound
      cases hfound
      exact List.mem_cons_self ..
    · rename_i hkey
      rw [if_neg hkey] at hfound
      exact List.mem_cons_of_mem _ (ih hfound)

theorem mem_updateKey_of_nodup {value updated : α} (hnodup : (values.map key).Nodup)
    (hfound : findKey key k values = some value) (hmem : updated ∈ updateKey key k change values) :
    updated = change value ∨ (updated ∈ values ∧ key updated ≠ k) := by
  induction values with
  | nil => cases hmem
  | cons first rest ih =>
    obtain ⟨hfresh, hrestNodup⟩ := List.nodup_cons.mp hnodup
    rw [findKey_cons] at hfound
    unfold updateKey at hmem
    split at hmem
    · rename_i hkey
      rw [if_pos hkey] at hfound
      cases hfound
      rcases List.mem_cons.mp hmem with heq | hrest
      · exact .inl heq
      · refine .inr ⟨List.mem_cons_of_mem _ hrest, fun hsame => hfresh ?_⟩
        rw [hkey, ← hsame]
        exact List.mem_map_of_mem hrest
    · rename_i hkey
      rw [if_neg hkey] at hfound
      rcases List.mem_cons.mp hmem with heq | hrest
      · rw [heq]
        exact .inr ⟨List.mem_cons_self .., hkey⟩
      · exact (ih hrestNodup hfound hrest).imp_right
          fun hold => ⟨List.mem_cons_of_mem _ hold.1, hold.2⟩

end

section

theorem eraseKey_sublist (k : κ) (values : List α) : (eraseKey key k values).Sublist values :=
  List.eraseP_sublist

theorem findKey_eraseKey_of_ne {k other : κ} (hne : other ≠ k) (values : List α) :
    findKey key other (eraseKey key k values) = findKey key other values := by
  induction values with
  | nil => rfl
  | cons first rest ih =>
    by_cases hfirst : key first = k
    · have hother : key first ≠ other := fun heq => hne (heq.symm.trans hfirst)
      rw [findKey_cons, if_neg hother]
      simp [eraseKey, hfirst]
    · have hcons : eraseKey key k (first :: rest) = first :: eraseKey key k rest := by
        simp [eraseKey, hfirst]
      rw [hcons, findKey_cons, findKey_cons, ih]

theorem findKey_eraseKey_self {k : κ} {values : List α} (hnodup : (values.map key).Nodup) :
    findKey key k (eraseKey key k values) = none := by
  rw [findKey_eq_none_iff]
  induction values with
  | nil => simp [eraseKey]
  | cons first rest ih =>
    obtain ⟨hfresh, hrest⟩ := List.nodup_cons.mp hnodup
    by_cases hfirst : key first = k
    · have herase : eraseKey key k (first :: rest) = rest := by
        simp [eraseKey, hfirst]
      rw [herase, ← hfirst]
      exact hfresh
    · have herase : eraseKey key k (first :: rest) = first :: eraseKey key k rest := by
        simp [eraseKey, hfirst]
      rw [herase, List.map_cons, List.mem_cons, not_or]
      exact ⟨fun heq => hfirst heq.symm, ih hrest⟩

end

section

@[simp]
theorem findLastKey_nil (k : κ) : findLastKey key k ([] : List α) = none := rfl

theorem findLastKey_append (k : κ) (front back : List α) : findLastKey key k (front ++ back) =
      (findLastKey key k back).or (findLastKey key k front) := by
  simp [findLastKey, findKey_append]

theorem findLastKey_cons_of_ne {k : κ} {first : α} (hne : key first ≠ k) (rest : List α) :
    findLastKey key k (first :: rest) = findLastKey key k rest := by
  rw [← List.singleton_append, findLastKey_append]
  have hfirst : findLastKey key k [first] = none := by
    simp [findLastKey, findKey_cons, hne]
  rw [hfirst, Option.or_none]

theorem findLastKey_concat (k : κ) (front : List α) (last : α) :
    findLastKey key k (front ++ [last]) =
      if key last = k then some last else findLastKey key k front := by
  rw [findLastKey_append]
  by_cases hkey : key last = k
  · simp [findLastKey, findKey_cons, hkey]
  · simp [findLastKey, findKey_cons, hkey]

theorem findLastKey_eraseKey_of_ne {k other : κ} (hne : other ≠ k) (values : List α) :
    findLastKey key other (eraseKey key k values) =
      findLastKey key other values := by
  induction values with
  | nil => rfl
  | cons first rest ih =>
    by_cases hfirst : key first = k
    · have hother : key first ≠ other := fun heq => hne (heq.symm.trans hfirst)
      rw [findLastKey_cons_of_ne key hother]
      simp [eraseKey, hfirst]
    · have hcons : eraseKey key k (first :: rest) = first :: eraseKey key k rest := by
        simp [eraseKey, hfirst]
      have hsplit (tail : List α) : findLastKey key other (first :: tail) =
          (findLastKey key other tail).or (findLastKey key other [first]) :=
        findLastKey_append key other [first] tail
      rw [hcons, hsplit (eraseKey key k rest), hsplit rest, ih]

theorem findKey_foldl_updateKey {γ : Type*} (keyOf : γ → κ)
    (change : γ → α → α) (hkey : ∀ entry value, key (change entry value) = key value)
    (hlast : ∀ first second value, keyOf first = keyOf second →
      change second (change first value) = change second value)
    (k : κ) (entries : List γ) (values : List α) :
    findKey key k
        (entries.foldl (fun values entry =>
          updateKey key (keyOf entry) (change entry) values) values) =
      match findLastKey keyOf k entries with
      | some entry => (findKey key k values).map (change entry)
      | none => findKey key k values := by
  induction entries using List.reverseRecOn with
  | nil => rfl
  | append_singleton front last ih =>
    rw [List.foldl_append, List.foldl_cons, List.foldl_nil,
      findKey_updateKey key (change last) (hkey last), findLastKey_concat]
    by_cases hkeyOf : keyOf last = k
    · subst hkeyOf
      rw [if_pos rfl, if_pos rfl, ih]
      cases hfound : findLastKey keyOf (keyOf last) front with
      | none => rfl
      | some entry =>
        have hentry := key_of_findKey keyOf hfound
        simp only [Option.map_map]
        congr 1
        funext value
        exact hlast entry last value hentry
    · have hne : k ≠ keyOf last := fun heq => hkeyOf heq.symm
      rw [if_neg hne, if_neg hkeyOf, ih]

end

/-- A change in place is not seen in an image that it keeps. -/
theorem map_modify_eq {image : α → β} {change : α → α} {values : List α} {i : ℕ}
    (hkept : ∀ value, values[i]? = some value → image (change value) = image value) :
    (values.modify i change).map image = values.map image := by
  refine List.ext_getElem? fun j => ?_
  rw [List.getElem?_map, List.getElem?_map, List.getElem?_modify]
  cases hvalue : values[j]? with
  | none => rfl
  | some value =>
    refine congrArg some ?_
    by_cases hij : i = j
    · exact (congrArg image (if_pos hij)).trans (hkept value (hij ▸ hvalue))
    · exact congrArg image (if_neg hij)

end AutowareUniverse.Library.KeyedList

/-!
# Loops over maps

A loop over a map visits its entries, each key once.  The lemmas say what a later search
finds after a loop that inserts or erases.
-/

namespace AutowareUniverse.Library.TreeMapLoops

open Library.KeyedList

variable {κ β : Type} [Ord κ] [Std.TransOrd κ] [Std.LawfulEqOrd κ]

theorem nodup_keys_toList (map : Std.TreeMap κ β) : (map.toList.map Prod.fst).Nodup := by
  rw [List.Nodup, List.pairwise_map]
  refine Std.TreeMap.distinct_keys_toList.imp ?_
  intro first second hdistinct heq
  exact hdistinct (Std.LawfulEqCmp.compare_eq_iff_eq.mpr heq)

variable [DecidableEq κ] (map : Std.TreeMap κ β)

theorem getElem?_insert (k other : κ) (value : β) :
    (map.insert k value)[other]? = if k = other then some value else map[other]? := by
  rw [Std.TreeMap.getElem?_insert]
  simp only [Std.LawfulEqCmp.compare_eq_iff_eq]

theorem getElem?_erase (k other : κ) :
    (map.erase k)[other]? = if k = other then none else map[other]? := by
  rw [Std.TreeMap.getElem?_erase]
  simp only [Std.LawfulEqCmp.compare_eq_iff_eq]

theorem findKey_toList (k : κ) :
    (findKey Prod.fst k map.toList).map Prod.snd = map[k]? := by
  cases hfound : findKey Prod.fst k map.toList with
  | some entry =>
    have hkey : entry.1 = k := key_of_findKey Prod.fst hfound
    have hmem := mem_of_findKey Prod.fst hfound
    exact (Std.TreeMap.mem_toList_iff_getElem?_eq_some.mp (hkey ▸ hmem)).symm
  | none =>
    cases hvalue : map[k]? with
    | none => rfl
    | some value =>
      have hmem := Std.TreeMap.mem_toList_iff_getElem?_eq_some.mpr hvalue
      exact absurd (List.mem_map_of_mem hmem) ((findKey_eq_none_iff Prod.fst).mp hfound)

/-- Of several values with one key the last one stays. -/
theorem getElem?_foldl_insert (key : β → κ) (values : List β) (map : Std.TreeMap κ β) (k : κ) :
    (values.foldl (fun map value => map.insert (key value) value) map)[k]? =
      (findLastKey key k values).or map[k]? := by
  induction values using List.reverseRecOn with
  | nil => simp
  | append_singleton front last ih =>
    rw [List.foldl_append, List.foldl_cons, List.foldl_nil, getElem?_insert, findLastKey_concat, ih]
    split <;> rfl

omit [Std.TransOrd κ] [Std.LawfulEqOrd κ] in
theorem getElem?_foldl_store {γ : Type} {store : Std.TreeMap κ β → κ × γ → Std.TreeMap κ β}
    {value : κ × γ → Option β} {entries : List (κ × γ)} (hstore : ∀ entry ∈ entries, ∀ map k,
      (store map entry)[k]? = if entry.1 = k then (value entry).or map[k]? else map[k]?)
    (hnodup : (entries.map Prod.fst).Nodup) (map : Std.TreeMap κ β) (k : κ) :
    (entries.foldl store map)[k]? = ((findKey Prod.fst k entries).bind value).or map[k]? := by
  induction entries generalizing map with
  | nil => simp
  | cons first rest ih =>
    rw [List.map_cons, List.nodup_cons] at hnodup
    rw [List.foldl_cons, findKey_cons, ih (fun entry hmem =>
      hstore entry (List.mem_cons_of_mem _ hmem)) hnodup.2, hstore first List.mem_cons_self]
    by_cases hfirst : first.1 = k
    · have hrest : findKey Prod.fst k rest = none :=
        (findKey_eq_none_iff Prod.fst).mpr (hfirst ▸ hnodup.1)
      simp [hrest, hfirst]
    · simp [hfirst]

theorem getElem?_foldl_erase (keys : List κ) (map : Std.TreeMap κ β) (k : κ) :
    (keys.foldl (fun map key => map.erase key) map)[k]? = if k ∈ keys then none else map[k]? := by
  induction keys generalizing map with
  | nil => simp
  | cons first rest ih =>
    rw [List.foldl_cons, ih, getElem?_erase]
    by_cases hfirst : first = k
    · simp [hfirst]
    · simp [hfirst, Ne.symm hfirst]

end AutowareUniverse.Library.TreeMapLoops
