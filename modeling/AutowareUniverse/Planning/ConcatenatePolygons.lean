import AutowareUniverse.Common.MotionUtils
import AutowareUniverse.Library.Walks

/-!
# Concatenating polygons

Obstacle polygons are polylines along a bound.  Two that overlap are walked along from the
first point of the front one, and where a segment crosses the other polyline the walk goes on
behind the crossed segment.
-/

namespace AutowareUniverse.Planning.Avoidance

section

open Common.MotionUtils Library.FiniteWalks

variable {K : Type} [Field K] [LinearOrder K]

structure PolygonPoint (K : Type) where
  point : Point K
  boundSegIdx : ℕ
  lonDistToSegment : K
  latDistToBound : K

def PolygonPoint.isAfter (self otherPoint : PolygonPoint K) : Bool :=
  if self.boundSegIdx = otherPoint.boundSegIdx then
    otherPoint.lonDistToSegment < self.lonDistToSegment
  else otherPoint.boundSegIdx < self.boundSegIdx

def intersect (p1 p2 p3 p4 : Point K) : Option (Point K) :=
  let det := (p1.x - p2.x) * (p4.y - p3.y) - (p4.x - p3.x) * (p1.y - p2.y)
  if det = 0 then none
  else
    let t := ((p4.y - p3.y) * (p4.x - p2.x) + (p3.x - p4.x) * (p4.y - p2.y)) / det
    let s := ((p2.y - p1.y) * (p4.x - p2.x) + (p1.x - p2.x) * (p4.y - p2.y)) / det
    if t < 0 ∨ 1 < t ∨ s < 0 ∨ 1 < s then none
    else some ⟨t * p1.x + (1 - t) * p2.x, t * p1.y + (1 - t) * p2.y, t * p1.z + (1 - t) * p2.z⟩

/-- The loop over the segments of the other polyline, from an index on. -/
def firstCrossing (curr next : Point K) : ℕ → List (PolygonPoint K) → Option (ℕ × Point K)
  | i, first :: second :: later =>
    match intersect curr next first.point second.point with
    | some intersection => some (i, intersection)
    | none => firstCrossing curr next (i + 1) (second :: later)
  | _, _ => none

/-- Which polyline is the outside one, and the index on it. -/
structure WalkState where
  isFrontPolygonOutside : Bool
  outsideIdx : ℕ
  deriving DecidableEq

section

variable (frontPolygon backPolygon : List (PolygonPoint K))

def outPoly (state : WalkState) : List (PolygonPoint K) :=
  if state.isFrontPolygonOutside then frontPolygon else backPolygon

def inPoly (state : WalkState) : List (PolygonPoint K) :=
  if state.isFrontPolygonOutside then backPolygon else frontPolygon

def afterSegment (state : WalkState) (curr next : Point K) : WalkState × List (PolygonPoint K) :=
  match firstCrossing curr next 0 (inPoly frontPolygon backPolygon state) with
  | some (i, intersection) =>
    (⟨!state.isFrontPolygonOutside, i + 1⟩, [⟨intersection, 0, 0, 0⟩])
  | none => (⟨state.isFrontPolygonOutside, state.outsideIdx + 1⟩, [])

/-- The loop; it has not ended when the given number of rounds is over. -/
def walk : ℕ → WalkState → List (PolygonPoint K) → Option (Except Failure (List (PolygonPoint K)))
  | 0, _, _ => none
  | rounds + 1, state, concatenatedPolygon =>
    let out := outPoly frontPolygon backPolygon state
    match out[state.outsideIdx]? with
    | none => some (.error .outOfRange)
    | some curr =>
      if state.outsideIdx = out.length - 1 then some (.ok (concatenatedPolygon ++ [curr]))
      else
        match out[state.outsideIdx + 1]?, (inPoly frontPolygon backPolygon state).isEmpty with
        | some next, false =>
          let (state, crossed) :=
            afterSegment frontPolygon backPolygon state curr.point next.point
          walk rounds state (concatenatedPolygon ++ [curr] ++ crossed)
        | _, _ => some (.error .outOfRange)

def concatenateTwoPolygons (rounds : ℕ) : Option (Except Failure (List (PolygonPoint K))) :=
  walk frontPolygon backPolygon rounds ⟨true, 0⟩ []

end

/-- Both polygons start before the other one ends. -/
def overlaps (p1 p2 : List (PolygonPoint K)) : Bool :=
  match p1.head?, p1.getLast?, p2.head?, p2.getLast? with
  | some p1Front, some p1Back, some p2Front, some p2Back =>
    p1Back.isAfter p2Front && p2Back.isAfter p1Front
  | _, _, _, _ => false

def inOrder (p1 p2 : List (PolygonPoint K)) : List (PolygonPoint K) × List (PolygonPoint K) :=
  match p1.head?, p2.head? with
  | some p1Front, some p2Front => if p2Front.isAfter p1Front then (p1, p2) else (p2, p1)
  | _, _ => (p2, p1)

def overlappingPair (uniquePolygons : List (List (PolygonPoint K))) :
    Option ((List (PolygonPoint K) × List (PolygonPoint K)) × List (List (PolygonPoint K))) :=
  let pairs := (List.range uniquePolygons.length).flatMap fun i => (List.range i).map (i, ·)
  pairs.findSome? fun (i, j) =>
    match uniquePolygons[i]?, uniquePolygons[j]? with
    | some p1, some p2 =>
      if overlaps p1 p2 then some (inOrder p1 p2, (uniquePolygons.eraseIdx i).eraseIdx j)
      else none
    | _, _ => none

/-- The loop; it has not ended when the given number of rounds is over. -/
def concatenatePolygons : ℕ → List (List (PolygonPoint K)) →
    Option (Except Failure (List (List (PolygonPoint K))))
  | 0, _ => none
  | rounds + 1, uniquePolygons =>
    match overlappingPair uniquePolygons with
    | none => some (.ok uniquePolygons)
    | some ((frontPolygon, backPolygon), others) =>
      match concatenateTwoPolygons frontPolygon backPolygon rounds with
      | none => none
      | some (.error failure) => some (.error failure)
      | some (.ok concatenatedPolygon) =>
        concatenatePolygons rounds (others ++ [concatenatedPolygon])

section

variable (frontPolygon backPolygon : List (PolygonPoint K))

/-- A segment leads to the one behind the first segment of the other polyline that it crosses,
else to the next one of its own polyline; a last point leads nowhere. -/
def nextSegment (state : WalkState) : Option WalkState :=
  match (outPoly frontPolygon backPolygon state)[state.outsideIdx]?,
    (outPoly frontPolygon backPolygon state)[state.outsideIdx + 1]? with
  | some curr, some next =>
    some (afterSegment frontPolygon backPolygon state curr.point next.point).1
  | _, _ => none

def OnPolygon (state : WalkState) : Prop :=
  state.outsideIdx < (outPoly frontPolygon backPolygon state).length

end

variable {frontPolygon backPolygon : List (PolygonPoint K)} {state : WalkState}

theorem firstCrossing_lt {curr next : Point K} {polygon : List (PolygonPoint K)} {start i : ℕ}
    {intersection : Point K}
    (hcrossing : firstCrossing curr next start polygon = some (i, intersection)) :
    i + 1 < start + polygon.length := by
  induction polygon generalizing start with
  | nil => cases hcrossing
  | cons first later ih =>
    cases later with
    | nil => cases hcrossing
    | cons second later =>
      rw [firstCrossing] at hcrossing
      simp only [List.length_cons] at ih ⊢
      split at hcrossing
      · cases hcrossing
        omega
      · have hlt := ih hcrossing
        omega

theorem onPolygon_afterSegment {curr next : Point K}
    (hnext : state.outsideIdx + 1 < (outPoly frontPolygon backPolygon state).length) :
    OnPolygon frontPolygon backPolygon
      (afterSegment frontPolygon backPolygon state curr next).1 := by
  unfold afterSegment
  split
  · rename_i hcrossing
    have hlt := firstCrossing_lt hcrossing
    rw [Nat.zero_add] at hlt
    unfold OnPolygon outPoly
    unfold inPoly at hlt
    cases hside : state.isFrontPolygonOutside <;> simpa [hside] using hlt
  · exact hnext

end

/-! ## The walk along two polygons -/

open Common.MotionUtils Library.FiniteWalks Relation

variable {K : Type} [Field K] [LinearOrder K] {frontPolygon backPolygon : List (PolygonPoint K)}
  {state : WalkState}

def IsLastPoint (frontPolygon backPolygon : List (PolygonPoint K)) (point : Option (PolygonPoint K)) :
    Prop :=
  point = frontPolygon.getLast? ∨ point = backPolygon.getLast?

omit [Field K] [LinearOrder K] in
variable (frontPolygon backPolygon) in
theorem getLast?_outPoly (state : WalkState) :
    IsLastPoint frontPolygon backPolygon (outPoly frontPolygon backPolygon state).getLast? := by
  unfold IsLastPoint outPoly
  cases state.isFrontPolygonOutside
  · exact .inr rfl
  · exact .inl rfl

theorem walk_of_none (hstate : OnPolygon frontPolygon backPolygon state)
    (hstop : nextSegment frontPolygon backPolygon state = none) :
    ∃ curr, (outPoly frontPolygon backPolygon state)[state.outsideIdx]? = some curr ∧
      IsLastPoint frontPolygon backPolygon (some curr) ∧
      ∀ rounds concatenatedPolygon,
        walk frontPolygon backPolygon (rounds + 1) state concatenatedPolygon =
          some (.ok (concatenatedPolygon ++ [curr])) := by
  have hcurr := List.getElem?_eq_getElem hstate
  have hlast : state.outsideIdx = (outPoly frontPolygon backPolygon state).length - 1 := by
    rw [nextSegment, hcurr] at hstop
    cases hnext : (outPoly frontPolygon backPolygon state)[state.outsideIdx + 1]? with
    | none =>
      have hlength := List.getElem?_eq_none_iff.mp hnext
      unfold OnPolygon at hstate
      omega
    | some next =>
      rw [hnext] at hstop
      cases hstop
  refine ⟨_, hcurr, ?_, ?_⟩
  · have hpoint := getLast?_outPoly frontPolygon backPolygon state
    rwa [List.getLast?_eq_getElem?, ← hlast, hcurr] at hpoint
  · intro rounds concatenatedPolygon
    simp only [walk, hcurr]
    rw [if_pos hlast]

theorem walk_of_some (hfront : frontPolygon ≠ []) (hback : backPolygon ≠ [])
    {after : WalkState} (hnext : nextSegment frontPolygon backPolygon state = some after) :
    OnPolygon frontPolygon backPolygon after ∧
    ∃ curr crossed, (outPoly frontPolygon backPolygon state)[state.outsideIdx]? = some curr ∧
      ∀ rounds concatenatedPolygon,
        walk frontPolygon backPolygon (rounds + 1) state concatenatedPolygon =
          walk frontPolygon backPolygon rounds after (concatenatedPolygon ++ curr :: crossed) := by
  rw [nextSegment] at hnext
  split at hnext
  · rename_i curr next hcurr hbehind
    cases hnext
    have hlength := (List.getElem?_eq_some_iff.mp hbehind).1
    have hinside : (inPoly frontPolygon backPolygon state).isEmpty = false := by
      unfold inPoly
      cases state.isFrontPolygonOutside <;> simp [hfront, hback]
    refine ⟨onPolygon_afterSegment hlength, curr,
      (afterSegment frontPolygon backPolygon state curr.point next.point).2, hcurr, ?_⟩
    intro rounds concatenatedPolygon
    simp only [walk, hcurr, hbehind, hinside]
    rw [if_neg (by omega), List.append_assoc, List.singleton_append]
  · cases hnext

theorem walk_of_ends (hfront : frontPolygon ≠ []) (hback : backPolygon ≠ [])
    (hends : Ends (nextSegment frontPolygon backPolygon) state)
    (hstate : OnPolygon frontPolygon backPolygon state)
    (concatenatedPolygon : List (PolygonPoint K)) :
    ∃ rounds walked, walk frontPolygon backPolygon rounds state concatenatedPolygon =
        some (.ok (concatenatedPolygon ++ walked)) ∧
      walked.head? = (outPoly frontPolygon backPolygon state)[state.outsideIdx]? ∧
      IsLastPoint frontPolygon backPolygon walked.getLast? := by
  induction hends generalizing concatenatedPolygon with
  | stop hstop =>
    obtain ⟨curr, hcurr, hlast, hwalk⟩ := walk_of_none hstate hstop
    exact ⟨1, [curr], hwalk 0 concatenatedPolygon, hcurr.symm, hlast⟩
  | step hnext _ ih =>
    obtain ⟨hafter, curr, crossed, hcurr, hwalk⟩ := walk_of_some hfront hback hnext
    obtain ⟨rounds, walked, hlater, hhead, hlast⟩ :=
      ih hafter (concatenatedPolygon ++ curr :: crossed)
    refine ⟨rounds + 1, curr :: crossed ++ walked, ?_, hcurr.symm, ?_⟩
    · rw [hwalk, hlater, List.append_assoc]
    · have hne : walked ≠ [] := by
        rintro rfl
        rw [List.getElem?_eq_getElem hafter] at hhead
        cases hhead
      rw [List.getLast?_append_of_ne_nil _ hne]
      exact hlast

variable {concatenatedPolygon : List (PolygonPoint K)} {rounds : ℕ}

theorem ends_of_walk (hfront : frontPolygon ≠ []) (hback : backPolygon ≠ [])
    {result : Except Failure (List (PolygonPoint K))}
    (hwalk : walk frontPolygon backPolygon rounds state concatenatedPolygon = some result) :
    Ends (nextSegment frontPolygon backPolygon) state := by
  induction rounds generalizing state concatenatedPolygon with
  | zero => cases hwalk
  | succ rounds ih =>
    cases hnext : nextSegment frontPolygon backPolygon state with
    | none => exact .stop hnext
    | some after =>
      obtain ⟨_, curr, crossed, _, hstep⟩ := walk_of_some hfront hback hnext
      rw [hstep] at hwalk
      exact .step hnext (ih hwalk)

/-- More rounds do not change the result. -/
theorem walk_mono (hfront : frontPolygon ≠ []) (hback : backPolygon ≠ [])
    (hstate : OnPolygon frontPolygon backPolygon state)
    {result : Except Failure (List (PolygonPoint K))}
    (hwalk : walk frontPolygon backPolygon rounds state concatenatedPolygon = some result)
    {more : ℕ} (hle : rounds ≤ more) :
    walk frontPolygon backPolygon more state concatenatedPolygon = some result := by
  induction rounds generalizing state concatenatedPolygon more with
  | zero => cases hwalk
  | succ rounds ih =>
    obtain ⟨more, rfl⟩ := Nat.exists_eq_add_of_lt (Nat.lt_of_succ_le hle)
    cases hnext : nextSegment frontPolygon backPolygon state with
    | none =>
      obtain ⟨curr, _, _, hstep⟩ := walk_of_none hstate hnext
      rw [hstep] at hwalk ⊢
      exact hwalk
    | some after =>
      obtain ⟨hafter, curr, crossed, _, hstep⟩ := walk_of_some hfront hback hnext
      rw [hstep] at hwalk ⊢
      exact ih hafter hwalk (Nat.le_add_right ..)

/-- There is one result, whatever the number of rounds. -/
theorem walk_unique (hfront : frontPolygon ≠ []) (hback : backPolygon ≠ []) {rounds more : ℕ}
    (hstate : OnPolygon frontPolygon backPolygon state)
    {result other : Except Failure (List (PolygonPoint K))}
    (hwalk : walk frontPolygon backPolygon rounds state concatenatedPolygon = some result)
    (hother : walk frontPolygon backPolygon more state concatenatedPolygon = some other) :
    result = other :=
  Option.some.inj ((walk_mono hfront hback hstate hwalk (le_max_left rounds more)).symm.trans
    (walk_mono hfront hback hstate hother (le_max_right rounds more)))

omit [Field K] [LinearOrder K] in
variable (frontPolygon backPolygon) in
theorem finite_onPolygon : {state | OnPolygon frontPolygon backPolygon state}.Finite := by
  have hpairs := (Set.finite_univ : (Set.univ : Set Bool).Finite).prod
    (Set.finite_lt_nat (frontPolygon.length + backPolygon.length))
  refine (hpairs.image fun pair => WalkState.mk pair.1 pair.2).subset ?_
  rintro ⟨isFrontPolygonOutside, outsideIdx⟩ hstate
  refine ⟨(isFrontPolygonOutside, outsideIdx), ⟨trivial, ?_⟩, rfl⟩
  change outsideIdx < frontPolygon.length + backPolygon.length
  cases isFrontPolygonOutside with
  | false => exact Nat.lt_add_left _ hstate
  | true => exact Nat.lt_add_right _ hstate

theorem finite_ahead (hfront : frontPolygon ≠ []) (hback : backPolygon ≠ []) :
    {other | TransGen (LeadsTo (nextSegment frontPolygon backPolygon)) state other}.Finite := by
  refine (finite_onPolygon frontPolygon backPolygon).subset fun other hahead => ?_
  obtain ⟨before, _, hlast⟩ := TransGen.tail'_iff.mp hahead
  exact (walk_of_some hfront hback hlast).1

def Concatenates (frontPolygon backPolygon : List (PolygonPoint K)) : Prop :=
  ∃ rounds concatenatedPolygon,
    concatenateTwoPolygons frontPolygon backPolygon rounds = some (.ok concatenatedPolygon) ∧
      concatenatedPolygon.head? = frontPolygon.head? ∧
      IsLastPoint frontPolygon backPolygon concatenatedPolygon.getLast?

def NoCycle (frontPolygon backPolygon : List (PolygonPoint K)) : Prop :=
  Acyclic (nextSegment frontPolygon backPolygon) ⟨true, 0⟩

omit [Field K] [LinearOrder K] in
theorem onPolygon_start (hfront : frontPolygon ≠ []) :
    OnPolygon frontPolygon backPolygon ⟨true, 0⟩ :=
  List.length_pos_of_ne_nil hfront

theorem concatenates_iff (hfront : frontPolygon ≠ []) (hback : backPolygon ≠ []) :
    Concatenates frontPolygon backPolygon ↔ NoCycle frontPolygon backPolygon := by
  rw [NoCycle, ← ends_iff_acyclic (finite_ahead hfront hback)]
  constructor
  · rintro ⟨rounds, _, hwalk, _⟩
    exact ends_of_walk hfront hback hwalk
  · intro hends
    obtain ⟨rounds, walked, hwalk, hhead, hlast⟩ :=
      walk_of_ends hfront hback hends (onPolygon_start hfront) []
    refine ⟨rounds, walked, hwalk, hhead.trans ?_, hlast⟩
    rw [List.head?_eq_getElem?]
    rfl

/-! ## Any number of polygons -/

section

variable {uniquePolygons others : List (List (PolygonPoint K))}

def ConcatenatesAll (uniquePolygons : List (List (PolygonPoint K))) : Prop :=
  ∃ rounds concatenated, concatenatePolygons rounds uniquePolygons = some (.ok concatenated)

/-- One round of the loop. -/
def Merges (uniquePolygons merged : List (List (PolygonPoint K))) : Prop :=
  ∃ frontPolygon backPolygon others rounds concatenatedPolygon,
    overlappingPair uniquePolygons = some ((frontPolygon, backPolygon), others) ∧
    concatenateTwoPolygons frontPolygon backPolygon rounds = some (.ok concatenatedPolygon) ∧
    merged = others ++ [concatenatedPolygon]

def NoCycleReached (uniquePolygons : List (List (PolygonPoint K))) : Prop :=
  ∀ reached, ReflTransGen Merges uniquePolygons reached → ∀ frontPolygon backPolygon others,
      overlappingPair reached = some ((frontPolygon, backPolygon), others) →
      NoCycle frontPolygon backPolygon

omit [Field K] in
theorem overlappingPair_eq_some
    (hpair : overlappingPair uniquePolygons = some ((frontPolygon, backPolygon), others)) :
    frontPolygon ∈ uniquePolygons ∧ backPolygon ∈ uniquePolygons ∧
      (∀ polygon ∈ others, polygon ∈ uniquePolygons) ∧
      others.length + 2 = uniquePolygons.length := by
  obtain ⟨⟨i, j⟩, hmem, hpair⟩ := List.exists_of_findSome?_eq_some hpair
  obtain ⟨i', hi, hj⟩ := List.mem_flatMap.mp hmem
  obtain ⟨j', hj, hsame⟩ := List.mem_map.mp hj
  cases hsame
  rw [List.mem_range] at hi hj
  simp only at hpair
  split at hpair
  · rename_i p1 p2 hp1 hp2
    split at hpair
    · obtain ⟨hordered, rfl⟩ := Prod.mk.inj (Option.some.inj hpair)
      have hp1 := List.mem_of_getElem? hp1
      have hp2 := List.mem_of_getElem? hp2
      have hmembers : frontPolygon ∈ uniquePolygons ∧ backPolygon ∈ uniquePolygons := by
        unfold inOrder at hordered
        split at hordered
        · split at hordered
          · cases hordered
            exact ⟨hp1, hp2⟩
          · cases hordered
            exact ⟨hp2, hp1⟩
        · cases hordered
          exact ⟨hp2, hp1⟩
      refine ⟨hmembers.1, hmembers.2, fun polygon hpolygon => ?_, ?_⟩
      · exact List.mem_of_mem_eraseIdx (List.mem_of_mem_eraseIdx hpolygon)
      · have hfirst := List.length_eraseIdx_of_lt hi
        have hsecond : j < (uniquePolygons.eraseIdx i).length := by omega
        rw [List.length_eraseIdx_of_lt hsecond, hfirst]
        omega
    · cases hpair
  · cases hpair

theorem concatenatedPolygon_ne_nil (hfront : frontPolygon ≠ []) (hback : backPolygon ≠ [])
    (hwalk : concatenateTwoPolygons frontPolygon backPolygon rounds =
      some (.ok concatenatedPolygon)) : concatenatedPolygon ≠ [] := by
  have hstart : OnPolygon frontPolygon backPolygon ⟨true, 0⟩ := onPolygon_start hfront
  obtain ⟨others, walked, hother, hhead, _⟩ :=
    walk_of_ends hfront hback (ends_of_walk hfront hback hwalk) hstart []
  cases walk_unique hfront hback hstart hwalk hother
  rintro hnil
  change walked = [] at hnil
  rw [hnil, List.getElem?_eq_getElem hstart] at hhead
  cases hhead

theorem Merges.fewer {merged : List (List (PolygonPoint K))}
    (hpolygons : ∀ polygon ∈ uniquePolygons, polygon ≠ []) (hmerges : Merges uniquePolygons merged) :
    merged.length < uniquePolygons.length ∧ ∀ polygon ∈ merged, polygon ≠ [] := by
  obtain ⟨frontPolygon, backPolygon, others, rounds, concatenatedPolygon, hpair, hwalk, rfl⟩ :=
    hmerges
  obtain ⟨hfront, hback, hothers, hlength⟩ := overlappingPair_eq_some hpair
  refine ⟨by rw [List.length_append, List.length_singleton]; omega, fun polygon hpolygon => ?_⟩
  rcases List.mem_append.mp hpolygon with hother | hnew
  · exact hpolygons polygon (hothers polygon hother)
  · rw [List.mem_singleton.mp hnew]
    exact concatenatedPolygon_ne_nil (hpolygons _ hfront) (hpolygons _ hback) hwalk

/-- What a round of the loop that ends has done. -/
theorem concatenatePolygons_succ {result : List (List (PolygonPoint K))}
    (hresult : concatenatePolygons (rounds + 1) uniquePolygons = some (.ok result)) :
    overlappingPair uniquePolygons = none ∧ result = uniquePolygons ∨
      ∃ frontPolygon backPolygon others concatenatedPolygon,
        overlappingPair uniquePolygons = some ((frontPolygon, backPolygon), others) ∧
        concatenateTwoPolygons frontPolygon backPolygon rounds = some (.ok concatenatedPolygon) ∧
        concatenatePolygons rounds (others ++ [concatenatedPolygon]) = some (.ok result) := by
  rw [concatenatePolygons] at hresult
  split at hresult
  · rename_i hnone
    cases hresult
    exact .inl ⟨hnone, rfl⟩
  · rename_i frontPolygon backPolygon others hpair
    split at hresult
    · cases hresult
    · cases hresult
    · rename_i concatenatedPolygon hwalk
      exact .inr ⟨frontPolygon, backPolygon, others, concatenatedPolygon, hpair, hwalk, hresult⟩

theorem concatenatePolygons_of_pair
    (hpair : overlappingPair uniquePolygons = some ((frontPolygon, backPolygon), others))
    (hwalk : concatenateTwoPolygons frontPolygon backPolygon rounds =
      some (.ok concatenatedPolygon)) :
    concatenatePolygons (rounds + 1) uniquePolygons =
      concatenatePolygons rounds (others ++ [concatenatedPolygon]) := by
  rw [concatenatePolygons, hpair]
  simp only [hwalk]

theorem concatenatePolygons_mono (hpolygons : ∀ polygon ∈ uniquePolygons, polygon ≠ [])
    {result : List (List (PolygonPoint K))}
    (hresult : concatenatePolygons rounds uniquePolygons = some (.ok result)) {more : ℕ}
    (hle : rounds ≤ more) : concatenatePolygons more uniquePolygons = some (.ok result) := by
  induction rounds generalizing uniquePolygons more with
  | zero => cases hresult
  | succ rounds ih =>
    obtain ⟨more, rfl⟩ := Nat.exists_eq_succ_of_ne_zero (show more ≠ 0 by omega)
    have hle := Nat.le_of_succ_le_succ hle
    rcases concatenatePolygons_succ hresult with ⟨hnone, rfl⟩ |
      ⟨frontPolygon, backPolygon, others, concatenatedPolygon, hpair, hwalk, hlater⟩
    · rw [concatenatePolygons, hnone]
    · obtain ⟨hfront, hback, _⟩ := overlappingPair_eq_some hpair
      have hmerges : Merges uniquePolygons (others ++ [concatenatedPolygon]) :=
        ⟨_, _, _, _, _, hpair, hwalk, rfl⟩
      rw [concatenatePolygons_of_pair hpair (walk_mono (hpolygons _ hfront) (hpolygons _ hback)
        (onPolygon_start (hpolygons _ hfront)) hwalk hle)]
      exact ih (hmerges.fewer hpolygons).2 hlater hle

theorem ConcatenatesAll.of_merges {merged : List (List (PolygonPoint K))}
    (hpolygons : ∀ polygon ∈ uniquePolygons, polygon ≠ [])
    (hends : ConcatenatesAll uniquePolygons) (hmerges : Merges uniquePolygons merged) :
    ConcatenatesAll merged := by
  obtain ⟨rounds, result, hresult⟩ := hends
  obtain ⟨frontPolygon, backPolygon, others, more, concatenatedPolygon, hpair, hwalk, rfl⟩ :=
    hmerges
  cases rounds with
  | zero => cases hresult
  | succ rounds =>
    rcases concatenatePolygons_succ hresult with ⟨hnone, _⟩ |
      ⟨_, _, _, concatenated, hsame, hother, hlater⟩
    · rw [hpair] at hnone
      cases hnone
    · cases hpair.symm.trans hsame
      obtain ⟨hfront, hback, _⟩ := overlappingPair_eq_some hpair
      have hstart : OnPolygon frontPolygon backPolygon ⟨true, 0⟩ :=
        onPolygon_start (hpolygons _ hfront)
      cases walk_unique (hpolygons _ hfront) (hpolygons _ hback) hstart hwalk hother
      exact ⟨rounds, result, hlater⟩

theorem concatenatesAll_iff (hpolygons : ∀ polygon ∈ uniquePolygons, polygon ≠ []) :
    ConcatenatesAll uniquePolygons ↔ NoCycleReached uniquePolygons := by
  constructor
  · intro hends reached hreach
    induction hreach using ReflTransGen.head_induction_on with
    | refl =>
      intro frontPolygon backPolygon others hpair
      obtain ⟨rounds, result, hresult⟩ := hends
      obtain ⟨hfront, hback, _⟩ := overlappingPair_eq_some hpair
      cases rounds with
      | zero => cases hresult
      | succ rounds =>
        rcases concatenatePolygons_succ hresult with ⟨hnone, _⟩ |
          ⟨_, _, _, concatenated, hsame, hwalk, _⟩
        · rw [hpair] at hnone
          cases hnone
        · cases hpair.symm.trans hsame
          exact (ends_of_walk (hpolygons _ hfront) (hpolygons _ hback) hwalk).acyclic
    | head hmerges _ ih =>
      exact ih (hmerges.fewer hpolygons).2 (hends.of_merges hpolygons hmerges)
  · intro hreached
    induction hlength : uniquePolygons.length using Nat.strong_induction_on
      generalizing uniquePolygons with
    | _ length ih =>
      cases hpair : overlappingPair uniquePolygons with
      | none => exact ⟨1, uniquePolygons, by rw [concatenatePolygons, hpair]⟩
      | some pair =>
        obtain ⟨⟨frontPolygon, backPolygon⟩, others⟩ := pair
        obtain ⟨hfront, hback, _⟩ := overlappingPair_eq_some hpair
        obtain ⟨rounds, concatenatedPolygon, hwalk, _⟩ :=
          (concatenates_iff (hpolygons _ hfront) (hpolygons _ hback)).mpr
            (hreached _ .refl _ _ _ hpair)
        have hmerges : Merges uniquePolygons (others ++ [concatenatedPolygon]) :=
          ⟨_, _, _, _, _, hpair, hwalk, rfl⟩
        obtain ⟨hfewer, hnonempty⟩ := hmerges.fewer hpolygons
        obtain ⟨more, result, hresult⟩ := ih _ (hlength ▸ hfewer) hnonempty
          (fun reached hreach => hreached reached (.head hmerges hreach)) rfl
        refine ⟨max rounds more + 1, result, ?_⟩
        rw [concatenatePolygons_of_pair hpair (walk_mono (hpolygons _ hfront)
          (hpolygons _ hback) (onPolygon_start (hpolygons _ hfront)) hwalk
          (le_max_left rounds more))]
        exact concatenatePolygons_mono hnonempty hresult (le_max_right rounds more)

/-- Two polygons, and all polygons that overlap, are concatenated if and only if the walks
along them have no cycle. -/
theorem concatenatePolygons_iff (hfront : frontPolygon ≠ []) (hback : backPolygon ≠ [])
    (hpolygons : ∀ polygon ∈ uniquePolygons, polygon ≠ []) :
    (Concatenates frontPolygon backPolygon ↔ NoCycle frontPolygon backPolygon) ∧
      (ConcatenatesAll uniquePolygons ↔ NoCycleReached uniquePolygons) :=
  ⟨concatenates_iff hfront hback, concatenatesAll_iff hpolygons⟩

end

/-- Points with the coordinates, in order along the bound. -/
def polyline (points : List (ℚ × ℚ)) : List (PolygonPoint ℚ) :=
  points.map fun (x, y) => ⟨⟨x, y, 0⟩, 0, x, 0⟩

def straight : List (PolygonPoint ℚ) :=
  polyline [(0, 0), (2, 0), (4, 0), (6, 0)]

/-- A polyline that crosses the straight one forwards and then again before it. -/
def turning : List (PolygonPoint ℚ) :=
  polyline [(5, 1), (5, -1), (1, 1 / 5), (1 / 2, -1)]

theorem concatenatePolygons_straight :
    (Concatenates straight straight ↔ NoCycle straight straight) ∧
      (ConcatenatesAll [straight] ↔ NoCycleReached [straight]) :=
  concatenatePolygons_iff (by decide) (by decide) (by decide)

/-- The walk goes round: over the second segment of the one to that of the other and back. -/
theorem concatenates_not_turning :
    straight ≠ [] ∧ turning ≠ [] ∧ ¬ Concatenates straight turning := by
  have hfront : straight ≠ [] := by decide
  have hback : turning ≠ [] := by decide
  refine ⟨hfront, hback, ?_⟩
  rw [concatenates_iff hfront hback]
  have hstart : LeadsTo (nextSegment straight turning) ⟨true, 0⟩ ⟨false, 2⟩ := by decide +kernel
  have hback : LeadsTo (nextSegment straight turning) ⟨false, 2⟩ ⟨true, 1⟩ := by decide +kernel
  have hsecond : LeadsTo (nextSegment straight turning) ⟨true, 1⟩ ⟨true, 2⟩ := by decide +kernel
  have hthird : LeadsTo (nextSegment straight turning) ⟨true, 2⟩ ⟨false, 1⟩ := by decide +kernel
  have hround : LeadsTo (nextSegment straight turning) ⟨false, 1⟩ ⟨true, 1⟩ := by decide +kernel
  exact fun hacyclic => hacyclic ⟨true, 1⟩ (.tail (.tail .refl hstart) hback)
    (.tail (.tail (.single hsecond) hthird) hround)

end AutowareUniverse.Planning.Avoidance
