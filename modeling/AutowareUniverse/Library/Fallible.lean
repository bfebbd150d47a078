import Mathlib.Data.List.Basic

/-!
# Fallible computations

A call that throws is an `Except.error`.  The lemmas take a successful
computation apart into its successful parts, and carry what each iteration of
a fallible loop preserves to the whole loop.
-/

namespace AutowareUniverse.Library.Fallible

variable {ε α β : Type} {next : α → Except ε β}

theorem bind_eq_ok {value : Except ε α} {result : β} : value >>= next = .ok result ↔
      ∃ produced, value = .ok produced ∧ next produced = .ok result := by
  cases value with
  | error failure =>
    refine ⟨fun hbind => ?_, ?_⟩
    · cases hbind
    · rintro ⟨produced, hvalue, _⟩
      cases hvalue
  | ok produced =>
    refine ⟨fun hbind => ⟨produced, rfl, hbind⟩, ?_⟩
    rintro ⟨other, hvalue, hnext⟩
    cases hvalue
    exact hnext

theorem map_eq_ok {value : Except ε α} {change : α → β} {result : β} :
    value.map change = .ok result ↔
      ∃ produced, value = .ok produced ∧ change produced = result := by
  cases value with
  | error failure =>
    refine ⟨fun hmap => ?_, ?_⟩
    · cases hmap
    · rintro ⟨produced, hvalue, _⟩
      cases hvalue
  | ok produced =>
    refine ⟨fun hmap => ⟨produced, rfl, Except.ok.inj hmap⟩, ?_⟩
    rintro ⟨other, hvalue, hchange⟩
    cases hvalue
    rw [← hchange]
    rfl

variable {program : Except ε α} {result : α}

theorem toOption_eq_some :
    program.toOption = some result ↔ program = .ok result := by
  cases program with
  | error failure =>
    constructor
    · intro hsome
      cases hsome
    · intro hok
      cases hok
  | ok other =>
    constructor
    · intro hsome
      cases hsome
      rfl
    · intro hok
      cases hok
      rfl

variable {values : List α}

/-- A loop runs on what its body does with the elements of the list. -/
theorem foldlM_congr {σ : Type} {body other : σ → α → Except ε σ}
    (hsame : ∀ value ∈ values, ∀ state, body state value = other state value) (state : σ) :
    values.foldlM body state = values.foldlM other state := by
  induction values generalizing state with
  | nil => rfl
  | cons first rest ih =>
    rw [List.foldlM_cons, List.foldlM_cons, hsame first (List.mem_cons_self ..)]
    refine congrArg (other state first >>= ·) (funext fun next => ?_)
    exact ih (fun value hmem => hsame value (List.mem_cons_of_mem _ hmem)) next

/-- A loop on the images of states does what the loop on the states does. -/
theorem foldlM_simulates {σ τ : Type} {body : τ → α → Except ε τ} {other : σ → α → Except ε σ}
    (image : σ → τ)
    (hstep : ∀ value ∈ values, ∀ state, body (image state) value = (other state value).map image)
    (state : σ) :
    values.foldlM body (image state) = (values.foldlM other state).map image := by
  induction values generalizing state with
  | nil => rfl
  | cons first rest ih =>
    rw [List.foldlM_cons, List.foldlM_cons, hstep first (List.mem_cons_self ..)]
    cases other state first with
    | error failure => rfl
    | ok next => exact ih (fun value hmem => hstep value (List.mem_cons_of_mem _ hmem)) next

theorem length_of_mapM {f : α → Except ε β} {results : List β}
    (hmap : values.mapM f = .ok results) : results.length = values.length := by
  induction values generalizing results with
  | nil =>
    cases hmap
    rfl
  | cons first rest ih =>
    rw [List.mapM_cons] at hmap
    obtain ⟨produced, _, hmap⟩ := bind_eq_ok.mp hmap
    obtain ⟨others, hothers, hmap⟩ := bind_eq_ok.mp hmap
    cases hmap
    rw [List.length_cons, List.length_cons, ih hothers]

/-- What each round of a loop over indices leaves to be seen is the whole column. -/
theorem map_of_mapM_range {f : ℕ → Except ε α} {n : ℕ} {results : List α} {observe : α → β}
    {column : List β} (hmap : (List.range n).mapM f = .ok results) (hlength : column.length = n)
    (hobserve : ∀ i < n, ∀ result, f i = .ok result → column[i]? = some (observe result)) :
    results.map observe = column := by
  have hround {start len : ℕ} {results : List α}
      (hmap : (List.range' start len).mapM f = .ok results) (hend : start + len = column.length) :
      results.map observe = column.drop start := by
    induction len generalizing start results with
    | zero =>
      cases hmap
      exact (List.drop_eq_nil_of_le (by omega)).symm
    | succ len ih =>
      rw [List.range'_succ, List.mapM_cons] at hmap
      obtain ⟨produced, hproduced, hmap⟩ := bind_eq_ok.mp hmap
      obtain ⟨others, hothers, hmap⟩ := bind_eq_ok.mp hmap
      cases hmap
      obtain ⟨hbound, hentry⟩ := List.getElem?_eq_some_iff.mp
        (hobserve start (by omega) produced hproduced)
      rw [List.drop_eq_getElem_cons hbound, hentry, List.map_cons, ih hothers (by omega)]
  rw [List.range_eq_range'] at hmap
  rw [hround hmap (by omega), List.drop_zero]

/-- A loop over indices runs through the states its rounds lead to. -/
theorem foldlM_range {σ : Type} {body : σ → ℕ → Except ε σ} (states : ℕ → σ) {n : ℕ}
    (hround : ∀ i < n, body (states i) i = .ok (states (i + 1))) :
    (List.range n).foldlM body (states 0) = .ok (states n) := by
  induction n with
  | zero => rfl
  | succ n ih =>
    have hearly := ih fun i hi => hround i (Nat.lt_succ_of_lt hi)
    rw [List.range_succ, List.foldlM_append, hearly]
    change (List.foldlM body (states n) [n] : Except ε σ) = _
    rw [List.foldlM_cons, hround n (Nat.lt_succ_self n)]
    rfl

/-! ## Success -/

def Succeeds (program : Except ε α) (post : α → Prop) : Prop :=
  ∃ result, program = .ok result ∧ post result

namespace Succeeds

theorem ok {post : α → Prop} (hpost : post result) : Succeeds (.ok result : Except ε α) post :=
  ⟨result, rfl, hpost⟩

theorem mono {post weaker : α → Prop}
    (hprogram : Succeeds program post) (hmono : ∀ result, post result → weaker result) :
    Succeeds program weaker := by
  obtain ⟨result, hresult, hpost⟩ := hprogram
  exact ⟨result, hresult, hmono result hpost⟩

theorem bind {middle : α → Prop} {post : β → Prop} (hprogram : Succeeds program middle)
    (hnext : ∀ produced, middle produced → Succeeds (next produced) post) :
    Succeeds (program >>= next) post := by
  obtain ⟨produced, hproduced, hmiddle⟩ := hprogram
  obtain ⟨result, hresult, hpost⟩ := hnext produced hmiddle
  exact ⟨result, bind_eq_ok.mpr ⟨produced, hproduced, hresult⟩, hpost⟩

/-- Continue with a result that is known. -/
theorem bind_eq {post : β → Prop} (hprogram : program = .ok result)
    (hnext : Succeeds (next result) post) : Succeeds (program >>= next) post := by
  rw [hprogram]
  exact hnext

/-- An invariant of the remaining elements and the state carries a loop. -/
theorem foldlM {σ : Type} {body : σ → α → Except ε σ} (Inv : List α → σ → Prop)
    (hbody : ∀ first rest state, Inv (first :: rest) state → Succeeds (body state first) (Inv rest))
    {state : σ} (hstart : Inv values state) :
    Succeeds (values.foldlM body state) (Inv []) := by
  induction values generalizing state with
  | nil => exact ok hstart
  | cons first rest ih =>
    rw [List.foldlM_cons]
    exact bind (hbody first rest state hstart) fun _ hnext => ih hnext

/-- A loop whose body succeeds on each value. -/
theorem mapM {f : α → Except ε β} (hall : ∀ value ∈ values, Succeeds (f value) fun _ => True) :
    Succeeds (values.mapM f) fun results => results.length = values.length := by
  induction values with
  | nil => exact ok rfl
  | cons first rest ih =>
    rw [List.mapM_cons]
    refine bind (hall first List.mem_cons_self) fun produced _ => ?_
    refine bind (ih fun value hmem => hall value (List.mem_cons_of_mem _ hmem)) fun others hlen => ?_
    refine ok ?_
    rw [List.length_cons, List.length_cons, hlen]

end Succeeds

def Ensures (program : Except ε α) (post : α → Prop) : Prop :=
  match program with
  | .ok result => post result
  | .error _ => True

theorem Ensures.of_eq {post : α → Prop}
    (hensures : Ensures program post) (hprogram : program = .ok result) : post result := by
  subst hprogram
  exact hensures

instance {program : Except ε α} {post : α → Prop} [DecidablePred post] :
    Decidable (Ensures program post) :=
  match program with
  | .ok result => inferInstanceAs (Decidable (post result))
  | .error _ => .isTrue trivial

/-- The computation fails in an allowed way, if it fails. -/
def ThrowsOnly (allowed : ε → Prop) (program : Except ε α) : Prop :=
  ∀ failure, program = .error failure → allowed failure

namespace ThrowsOnly

variable {allowed : ε → Prop}

theorem ok (result : α) : ThrowsOnly allowed (.ok result : Except ε α) := by
  intro failure hfailed
  cases hfailed

theorem error {failure : ε} (hallowed : allowed failure) :
    ThrowsOnly allowed (.error failure : Except ε α) := by
  intro other hother
  cases hother
  exact hallowed

theorem bind (hprogram : ThrowsOnly allowed program)
    (hnext : ∀ produced, program = .ok produced → ThrowsOnly allowed (next produced)) :
    ThrowsOnly allowed (program >>= next) := by
  cases program with
  | error failure =>
    intro other hother
    cases hother
    exact hprogram failure rfl
  | ok produced => exact hnext produced rfl

theorem map (hprogram : ThrowsOnly allowed program) (change : α → β) :
    ThrowsOnly allowed (program.map change) := by
  cases program with
  | error failure =>
    intro other hother
    cases hother
    exact hprogram failure rfl
  | ok produced => exact ok _

theorem foldlM {σ : Type} {body : σ → α → Except ε σ}
    (hbody : ∀ state value, ThrowsOnly allowed (body state value)) (values : List α)
    (state : σ) : ThrowsOnly allowed (values.foldlM body state) := by
  induction values generalizing state with
  | nil => exact ok state
  | cons first rest ih =>
    rw [List.foldlM_cons]
    exact bind (hbody state first) fun next _ => ih next

end ThrowsOnly

/-- `std::find_if`: the elements before the first hit, and those from it on. -/
def findIf (hit : α → Except ε Bool) : List α → Except ε (List α × List α)
  | [] => .ok ([], [])
  | first :: rest => do
    if ← hit first then
      return ([], first :: rest)
    else
      let (before, found) ← findIf hit rest
      return (first :: before, found)

/-- Whether `std::find_if` finds an element. -/
def exists? (hit : α → Except ε Bool) (values : List α) : Except ε Bool :=
  (findIf hit values).map fun split => !split.2.isEmpty

variable {hit : α → Except ε Bool} {found : α → Bool}

section

variable (hhit : ∀ value ∈ values, hit value = .ok (found value))

include hhit

theorem findIf_eq : findIf hit values =
      .ok (values.takeWhile (!found ·), values.dropWhile (!found ·)) := by
  induction values with
  | nil => rfl
  | cons first rest ih =>
    have hfirst := hhit first (List.mem_cons_self ..)
    have hrest := ih fun value hmem => hhit value (List.mem_cons_of_mem _ hmem)
    rw [findIf, hfirst, hrest]
    cases hfound : found first with
    | true => simp [bind, Except.bind, pure, Except.pure, hfound]
    | false => simp [bind, Except.bind, pure, Except.pure, hfound]

theorem findIf_cases :
    (values.any found = false ∧ findIf hit values = .ok (values, [])) ∨
      (values.any found = true ∧ ∃ before first after,
        findIf hit values = .ok (before, first :: after) ∧ first ∈ values) := by
  induction values with
  | nil => exact .inl ⟨rfl, rfl⟩
  | cons first rest ih =>
    have hfirst := hhit first (List.mem_cons_self ..)
    rw [findIf, hfirst, List.any_cons]
    cases hfound : found first with
    | true => exact .inr ⟨rfl, [], first, rest, rfl, List.mem_cons_self ..⟩
    | false =>
      rcases ih fun value hmem => hhit value (List.mem_cons_of_mem _ hmem) with
        ⟨hany, hfind⟩ | ⟨hany, before, hit', after, hfind, hmem⟩
      · rw [hfind]
        exact .inl ⟨hany, rfl⟩
      · rw [hfind]
        exact .inr ⟨hany, first :: before, hit', after, rfl, List.mem_cons_of_mem _ hmem⟩

theorem exists?_eq :
    exists? hit values = .ok (values.any found) := by
  rcases findIf_cases hhit with ⟨hany, hfind⟩ | ⟨hany, before, first, after, hfind, _⟩
  · rw [exists?, hfind, hany]
    rfl
  · rw [exists?, hfind, hany]
    rfl

end

/-- A search whose predicate never fails splits the list. -/
theorem findIf_succeeds (hhit : ∀ value ∈ values, ∃ found, hit value = .ok found) :
    Succeeds (findIf hit values) fun split => values = split.1 ++ split.2 := by
  induction values with
  | nil => exact .ok rfl
  | cons first rest ih =>
    obtain ⟨found, hfirst⟩ := hhit first (List.mem_cons_self ..)
    refine Succeeds.bind_eq hfirst ?_
    cases found with
    | true => exact .ok rfl
    | false =>
      refine (ih fun value hmem => hhit value (List.mem_cons_of_mem _ hmem)).bind ?_
      rintro ⟨before, after⟩ hsplit
      exact .ok (congrArg (first :: ·) hsplit)

theorem exists?_succeeds (hhit : ∀ value ∈ values, ∃ found, hit value = .ok found) :
    ∃ found, exists? hit values = .ok found := by
  obtain ⟨split, hsplit, _⟩ := findIf_succeeds hhit
  exact ⟨_, by rw [exists?, hsplit]; rfl⟩

/-- `std::remove_if` and `erase`, for a predicate that also changes the state. -/
def removeIf {σ : Type} (remove : α → σ → Except ε (Bool × σ)) : List α → σ → Except ε (List α × σ)
  | [], state => .ok ([], state)
  | first :: rest, state => do
    let (removed, middle) ← remove first state
    let (kept, last) ← removeIf remove rest middle
    return (if removed then kept else first :: kept, last)

end AutowareUniverse.Library.Fallible
