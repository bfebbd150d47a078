import AutowareUniverse.Planning.PathShifter

/-!
# Removing the lines behind the vehicle

The lines that end up to an index of the path are removed, and the end shift of one of them
becomes the base offset.  It keeps the shift behind the index if it is that of the line that
ends last, but the first line to end is taken.
-/

namespace AutowareUniverse.Planning

open Common.MotionUtils Library.Fallible

namespace PathShifter

section

variable {K O : Type} [Field K] [LinearOrder K]

def keptLines (nearestIdx : ℕ) (lines : List (ShiftLine K O)) : List (ShiftLine K O) :=
  lines.filter fun line => nearestIdx < line.endIdx

def removedLines (nearestIdx : ℕ) (lines : List (ShiftLine K O)) : List (ShiftLine K O) :=
  lines.filter fun line => ¬ nearestIdx < line.endIdx

def EndsFirst (line : ShiftLine K O) (lines : List (ShiftLine K O)) : Prop :=
  ∃ early late, lines = early ++ line :: late ∧
    (∀ other ∈ early, line.endIdx < other.endIdx) ∧ ∀ other ∈ late, line.endIdx ≤ other.endIdx

def EndsLast (line : ShiftLine K O) (lines : List (ShiftLine K O)) : Prop :=
  line ∈ lines ∧ ∀ other ∈ lines, other.endIdx ≤ line.endIdx

omit [Field K] [LinearOrder K]

theorem endsFirst_foldl {first : ShiftLine K O} {early : List (ShiftLine K O)}
    (hfirst : EndsFirst first early) (rest : List (ShiftLine K O)) :
    EndsFirst (rest.foldl (fun largest line =>
      if decide (line.endIdx < largest.endIdx) then line else largest) first) (early ++ rest) := by
  induction rest generalizing first early with
  | nil =>
    rw [List.append_nil]
    exact hfirst
  | cons line rest ih =>
    obtain ⟨before, behind, rfl, hbefore, hbehind⟩ := hfirst
    rw [List.foldl_cons, List.append_cons (before ++ first :: behind) line rest]
    by_cases hlt : line.endIdx < first.endIdx
    · rw [decide_eq_true hlt, if_pos rfl]
      refine ih ⟨before ++ first :: behind, [], rfl, fun other hmem => ?_,
        fun other hmem => absurd hmem List.not_mem_nil⟩
      rcases List.mem_append.mp hmem with hmem | hmem
      · exact hlt.trans (hbefore other hmem)
      · rcases List.mem_cons.mp hmem with rfl | hmem
        · exact hlt
        · exact hlt.trans_le (hbehind other hmem)
    · rw [decide_eq_false hlt]
      refine ih ⟨before, behind ++ [line], List.append_assoc .., hbefore, fun other hmem => ?_⟩
      rcases List.mem_append.mp hmem with hmem | hmem
      · exact hbehind other hmem
      · obtain rfl := List.mem_singleton.mp hmem
        exact not_lt.mp hlt

variable {lines : List (ShiftLine K O)}

theorem endsFirst_of_lastRemoved {line : ShiftLine K O}
    (hline : lastRemoved lines = some line) : EndsFirst line lines := by
  cases lines with
  | nil => cases hline
  | cons first rest =>
    obtain rfl := Option.some.inj hline
    have hfirst : EndsFirst first [first] := ⟨[], [], rfl,
      fun other hmem => absurd hmem List.not_mem_nil,
      fun other hmem => absurd hmem List.not_mem_nil⟩
    exact endsFirst_foldl hfirst rest

theorem EndsFirst.unique {line other : ShiftLine K O}
    (hline : EndsFirst line lines) (hother : EndsFirst other lines) : line = other := by
  obtain ⟨early, late, rfl, hearly, hlate⟩ := hline
  obtain ⟨early', late', heq, hearly', hlate'⟩ := hother
  rcases List.append_eq_append_iff.mp heq with ⟨middle, rfl, hmiddle⟩ | ⟨middle, rfl, hmiddle⟩
  · cases middle with
    | nil => exact (List.cons.inj hmiddle).1
    | cons head tail =>
      obtain ⟨rfl, rfl⟩ := List.cons.inj hmiddle
      have hlt := hearly' line (by simp)
      have hle := hlate other (by simp)
      omega
  · cases middle with
    | nil => exact ((List.cons.inj hmiddle).1).symm
    | cons head tail =>
      obtain ⟨rfl, rfl⟩ := List.cons.inj hmiddle
      have hlt := hearly other (by simp)
      have hle := hlate' line (by simp)
      omega

variable [Field K] [LinearOrder K]

theorem follows_keptLines {arc shift : ℕ → K} {index : ℕ}
    {level : K} [IsStrictOrderedRing K] (hseparate : Separate index lines)
    (hfollows : Follows arc shift index level lines) (nearestIdx : ℕ) :
    ∃ index' level', Follows arc shift index' level' (keptLines nearestIdx lines) ∧
      Separate index' (keptLines nearestIdx lines) ∧
      (index' ≤ nearestIdx ∨ index' = index) ∧
      (removedLines nearestIdx lines = [] → level' = level) ∧
      ∀ line, EndsLast line (removedLines nearestIdx lines) →
        |level' - line.endShiftLength| ≤ epsilon := by
  induction lines generalizing index level with
  | nil => exact ⟨index, level, hfollows, hseparate, .inr rfl, fun _ => rfl,
      fun line hline => absurd hline.1 List.not_mem_nil⟩
  | cons first rest ih =>
    obtain ⟨hstart, hlt, hrest⟩ := id hseparate
    by_cases hkept : nearestIdx < first.endIdx
    · have hall : ∀ line ∈ first :: rest, nearestIdx < line.endIdx := by
        intro line hmem
        rcases List.mem_cons.mp hmem with rfl | hmem
        · exact hkept
        · have hline := hrest.le_startIdx line hmem
          omega
      have hkeptLines : keptLines nearestIdx (first :: rest) = first :: rest :=
        List.filter_eq_self.mpr fun line hmem => decide_eq_true (hall line hmem)
      have hremoved : removedLines nearestIdx (first :: rest) = [] :=
        List.filter_eq_nil_iff.mpr fun line hmem hnot => by
          have hline := hall line hmem
          simp only [decide_not, Bool.not_eq_eq_eq_not, Bool.not_true, decide_eq_false_iff_not]
            at hnot
          exact hnot hline
      rw [hkeptLines, hremoved]
      exact ⟨index, level, hfollows, hseparate, .inr rfl, fun _ => rfl,
        fun line hline => absurd hline.1 List.not_mem_nil⟩
    · obtain ⟨index', level', hfollows', hseparate', hindex, hlevel, hlast⟩ :=
        ih hrest hfollows.2.2
      have hkeptLines : keptLines nearestIdx (first :: rest) = keptLines nearestIdx rest :=
        List.filter_cons_of_neg (by simpa using hkept)
      have hremoved : removedLines nearestIdx (first :: rest) =
          first :: removedLines nearestIdx rest :=
        List.filter_cons_of_pos (by simpa using hkept)
      rw [hkeptLines, hremoved]
      refine ⟨index', level', hfollows', hseparate', ?_,
        fun hnil => absurd hnil (List.cons_ne_nil _ _), ?_⟩
      · rcases hindex with hle | rfl
        · exact .inl hle
        · exact .inl (not_lt.mp hkept)
      · rintro line ⟨hmem, hends⟩
        rcases List.mem_cons.mp hmem with rfl | hmem
        · have hnil : removedLines nearestIdx rest = [] := by
            refine List.eq_nil_iff_forall_not_mem.mpr fun other hother => ?_
            have hle := hends other (List.mem_cons_of_mem _ hother)
            have hbehind := hrest.le_startIdx other (List.mem_of_mem_filter hother)
            omega
          rw [hlevel hnil]
          have hcut := abs_cut_sub_le (line.endShiftLength - level)
          have heq : level + cut (line.endShiftLength - level) - line.endShiftLength =
              cut (line.endShiftLength - level) - (line.endShiftLength - level) := by ring
          rw [heq]
          exact hcut
        · exact hlast line ⟨hmem, fun other hother => hends other (List.mem_cons_of_mem _ hother)⟩

theorem exists_part_of_ramp [IsStrictOrderedRing K] {arc : ℕ → K} {line : ShiftLine K O} {i : ℕ}
    (hstart : line.startIdx ≤ i) (hend : i ≤ line.endIdx) (hlower : arc line.startIdx ≤ arc i)
    (hupper : arc i ≤ arc line.endIdx) :
    ∃ part : K, 0 ≤ part ∧ part ≤ 1 ∧ ∀ delta, ramp arc line delta i = part * delta := by
  have hlength := le_max_left (arc line.endIdx - arc line.startIdx) epsilon
  have hpos : 0 < max (arc line.endIdx - arc line.startIdx) epsilon :=
    lt_max_of_lt_right epsilon_pos
  refine ⟨(arc i - arc line.startIdx) / max (arc line.endIdx - arc line.startIdx) epsilon,
    div_nonneg (by linarith) hpos.le, (div_le_one hpos).mpr (by linarith), fun delta => ?_⟩
  unfold ramp
  rw [if_neg (by omega), if_pos hend]

/-- Two shifts along the same lines differ no more than the levels they start from, up to what
is cut off of each. -/
theorem abs_sub_le_of_follows [IsStrictOrderedRing K] {arc shift shift' : ℕ → K} {size : ℕ}
    (hmono : ∀ i j, i ≤ j → j < size → arc i ≤ arc j) (hsize : ∀ line ∈ lines, line.endIdx < size)
    {index index' : ℕ} {level level' bound : K} (hfollows : Follows arc shift index level lines)
    (hfollows' : Follows arc shift' index' level' lines) (hlevel : |level - level'| ≤ bound)
    (hbound : 2 * epsilon ≤ bound) {i : ℕ} (hindex : index < i) (hindex' : index' < i) :
    |shift i - shift' i| ≤ bound + 2 * epsilon := by
  have hepsilon : (0 : K) < epsilon := epsilon_pos
  induction lines generalizing index index' level level' with
  | nil =>
    rw [hfollows i hindex, hfollows' i hindex']
    linarith
  | cons line rest ih =>
    obtain ⟨hbefore, hinside, hafter⟩ := hfollows
    obtain ⟨hbefore', hinside', hafter'⟩ := hfollows'
    rcases le_or_gt i line.startIdx with hstart | hstart
    · rw [hbefore i hindex hstart, hbefore' i hindex' hstart]
      linarith
    rcases le_or_gt i line.endIdx with hend | hend
    · have hsizeEnd := hsize line (List.mem_cons_self ..)
      obtain ⟨part, hpart, hpartLe, hramp⟩ := exists_part_of_ramp hstart.le hend
        (hmono _ _ hstart.le (by omega)) (hmono _ _ hend hsizeEnd)
      rw [hinside i hstart hend, hinside' i hstart hend, hramp, hramp]
      have hcut := abs_le.mp (abs_cut_sub_le (part * (line.endShiftLength - level)))
      have hcut' := abs_le.mp (abs_cut_sub_le (part * (line.endShiftLength - level')))
      have hrest : |(1 - part) * (level - level')| ≤ bound := by
        rw [abs_mul, abs_of_nonneg (by linarith)]
        exact (mul_le_of_le_one_left (abs_nonneg _) (by linarith)).trans hlevel
      have hrest := abs_le.mp hrest
      rw [abs_le]
      constructor
      · linarith [hcut.1, hcut'.2, hrest.1]
      · linarith [hcut.2, hcut'.1, hrest.2]
    · have hcut := abs_le.mp (abs_cut_sub_le (line.endShiftLength - level))
      have hcut' := abs_le.mp (abs_cut_sub_le (line.endShiftLength - level'))
      refine ih (fun other hmem => hsize other (List.mem_cons_of_mem _ hmem)) hafter hafter' ?_
        hend hend
      rw [abs_le]
      constructor
      · linarith [hcut.1, hcut'.2]
      · linarith [hcut.2, hcut'.1]

end

/-! ## The removal -/

section

variable {K O : Type} [Field K] [LinearOrder K] {env : Environment K O}

/-- The lines know the points of the path nearest to their ends, and are sorted. -/
structure Placed (shifter : PathShifter K O) : Prop where
  startIdx : ∀ line ∈ shifter.shiftLines,
    findNearestIndex shifter.referencePath line.startPose.position = .ok line.startIdx
  endIdx : ∀ line ∈ shifter.shiftLines,
    findNearestIndex shifter.referencePath line.endPose.position = .ok line.endIdx
  sorted : shifter.shiftLines.Pairwise fun line other => line.startIdx ≤ other.startIdx

def Sorts (env : Environment K O) : Prop :=
  ∀ lines, (env.sort lines).Perm lines ∧
    (env.sort lines).Pairwise fun line other => line.startIdx ≤ other.startIdx

theorem updateShiftLinesIndices_cons (self : PathShifter K O) (line : ShiftLine K O)
    (lines : List (ShiftLine K O)) :
    self.updateShiftLinesIndices (line :: lines) = (do
      let startIdx ← findNearestIndex self.referencePath line.startPose.position
      let endIdx ← findNearestIndex self.referencePath line.endPose.position
      let updated ← self.updateShiftLinesIndices lines
      return { line with startIdx := startIdx, endIdx := endIdx } :: updated) := by
  unfold updateShiftLinesIndices
  rw [List.mapM_cons]
  simp only [bind_assoc, pure_bind]

variable {self : PathShifter K O}

theorem updateShiftLinesIndices_mem {lines updated : List (ShiftLine K O)}
    (hupdated : self.updateShiftLinesIndices lines = .ok updated) :
    ∀ line ∈ updated,
      findNearestIndex self.referencePath line.startPose.position = .ok line.startIdx ∧
        findNearestIndex self.referencePath line.endPose.position = .ok line.endIdx := by
  induction lines generalizing updated with
  | nil =>
    cases hupdated
    exact fun line hmem => absurd hmem List.not_mem_nil
  | cons first rest ih =>
    rw [updateShiftLinesIndices_cons] at hupdated
    obtain ⟨startIdx, hstart, hupdated⟩ := bind_eq_ok.mp hupdated
    obtain ⟨endIdx, hend, hupdated⟩ := bind_eq_ok.mp hupdated
    obtain ⟨others, hothers, hupdated⟩ := bind_eq_ok.mp hupdated
    cases hupdated
    intro line hmem
    rcases List.mem_cons.mp hmem with rfl | hmem
    · exact ⟨hstart, hend⟩
    · exact ih hothers line hmem

variable {lines : List (ShiftLine K O)}

theorem placed_setShiftLines (hsort : Sorts env) {self after : PathShifter K O}
    (hset : self.setShiftLines env lines = .ok after) :
    after.Placed := by
  obtain ⟨updated, hupdated, hset⟩ := bind_eq_ok.mp hset
  cases hset
  have hmem := updateShiftLinesIndices_mem hupdated
  obtain ⟨hperm, hsorted⟩ := hsort updated
  exact ⟨fun line hline => (hmem line (hperm.mem_iff.mp hline)).1,
    fun line hline => (hmem line (hperm.mem_iff.mp hline)).2, hsorted⟩

/-- The indices of the line are those of the points of the path nearest to its ends. -/
def IsPlaced (path : List (Pose K O)) (line : ShiftLine K O) : Prop :=
  findNearestIndex path line.startPose.position = .ok line.startIdx ∧
    findNearestIndex path line.endPose.position = .ok line.endIdx

theorem updateShiftLinesIndices_of_placed
    (hplaced : ∀ line ∈ lines, IsPlaced self.referencePath line) :
    self.updateShiftLinesIndices lines = .ok lines := by
  induction lines with
  | nil => rfl
  | cons first rest ih =>
    obtain ⟨hstart, hend⟩ := hplaced first (List.mem_cons_self ..)
    rw [updateShiftLinesIndices_cons, hstart, hend,
      ih fun line hmem => hplaced line (List.mem_cons_of_mem _ hmem)]
    rfl

theorem setShiftLines_of_placed (hplaced : ∀ line ∈ lines, IsPlaced self.referencePath line) :
    self.setShiftLines env lines = .ok { self with shiftLines := env.sort lines } := by
  unfold setShiftLines
  rw [updateShiftLinesIndices_of_placed hplaced]
  rfl

theorem searchNearest_lt {outside : Pose K O → Bool} {point : Point K} {poses : List (Pose K O)}
    {i idx : ℕ} {found : Option (K × ℕ)} (hfound : ∀ best ∈ found, best.2 < i + poses.length)
    (hsearch : searchNearest outside point i found poses = some idx) : idx < i + poses.length := by
  induction poses generalizing i found with
  | nil =>
    obtain ⟨best, hbest, rfl⟩ := Option.map_eq_some_iff.mp hsearch
    exact hfound best hbest
  | cons pose poses ih =>
    have hnext : ∀ {other : Option (K × ℕ)}, (∀ best ∈ other, best.2 < i + (pose :: poses).length) →
        ∀ best ∈ other, best.2 < i + 1 + poses.length := fun hother best hbest => by
      have hlt := hother best hbest
      rw [List.length_cons] at hlt
      omega
    have hself : ∀ best ∈ some (calcSquaredDistance2d pose.position point, i),
        best.2 < i + 1 + poses.length := fun best hbest => by
      obtain rfl := Option.some.inj hbest
      dsimp only
      omega
    have hgoal : idx < i + 1 + poses.length := by
      unfold searchNearest at hsearch
      cases found with
      | none =>
        dsimp only at hsearch
        split_ifs at hsearch
        · exact ih (fun best hbest => by cases hbest) hsearch
        · exact ih hself hsearch
      | some best =>
        dsimp only at hsearch
        split_ifs at hsearch
        · obtain rfl := Option.some.inj hsearch
          exact hnext hfound best rfl
        · exact ih (hnext hfound) hsearch
        · exact ih hself hsearch
    rw [List.length_cons]
    omega

theorem findNearestIndex_lt {poses : List (Pose K O)} {point : Point K} {idx : ℕ}
    (hfind : findNearestIndex poses point = .ok idx) : idx < poses.length := by
  unfold findNearestIndex at hfind
  cases hsearch : searchNearest (fun _ => false) point 0 none poses with
  | none =>
    rw [hsearch] at hfind
    cases hfind
  | some found =>
    rw [hsearch] at hfind
    cases hfind
    have hlt := searchNearest_lt (fun best hbest => by cases hbest) hsearch
    omega

theorem Placed.onPath (hplaced : self.Placed) : self.OnPath :=
  fun line hmem => ⟨findNearestIndex_lt (hplaced.startIdx line hmem),
    findNearestIndex_lt (hplaced.endIdx line hmem)⟩

/-- The tolerance of a shift: the noise of the base offset, and what is cut off. -/
def tolerance : K := 1 / 10000 + 3 * epsilon

/-- The removal hands the end shift of the line that ends last to the base offset, and so keeps
the linear shift behind the index if the lines do not overlap. -/
structure Keeps (env : Environment K O) (before after : PathShifter K O) (nearestIdx : ℕ) :
    Prop where
  baseOffset : removedLines nearestIdx before.shiftLines ≠ [] →
    ∃ line, EndsLast line (removedLines nearestIdx before.shiftLines) ∧
      after.baseOffset = removeNoise line.endShiftLength
  shift : NonOverlapping before.shiftLines → ∀ offsetBack early late,
    before.generate env ⟨[], []⟩ offsetBack .linear = .ok (early, true) →
    after.generate env ⟨[], []⟩ offsetBack .linear = .ok (late, true) →
    ∀ i, nearestIdx < i → i < before.referencePath.length →
      |shiftAt late i - shiftAt early i| ≤ tolerance

theorem removeBehind_eq (hplaced : self.Placed) (nearestIdx : ℕ) :
    ∃ after, self.removeBehindShiftLineAndSetBaseOffset env nearestIdx = .ok after ∧
      after.referencePath = self.referencePath ∧
      after.shiftLines = env.sort (keptLines nearestIdx self.shiftLines) ∧
      (removedLines nearestIdx self.shiftLines = [] →
        after.baseOffset = removeNoise self.baseOffset) ∧
      ∀ line, EndsFirst line (removedLines nearestIdx self.shiftLines) →
        after.baseOffset = removeNoise line.endShiftLength := by
  have hkept : ∀ line ∈ keptLines nearestIdx self.shiftLines,
      IsPlaced self.referencePath line := fun line hmem =>
    have hold := List.mem_of_mem_filter hmem
    ⟨hplaced.startIdx line hold, hplaced.endIdx line hold⟩
  unfold removeBehindShiftLineAndSetBaseOffset
  dsimp only
  rw [show (self.shiftLines.filter fun line => nearestIdx < line.endIdx) =
    keptLines nearestIdx self.shiftLines from rfl, setShiftLines_of_placed hkept,
    show (self.shiftLines.filter fun line => ¬ nearestIdx < line.endIdx) =
      removedLines nearestIdx self.shiftLines from rfl]
  refine ⟨_, rfl, rfl, rfl, fun hnil => ?_, fun line hline => ?_⟩
  · rw [hnil]
    rfl
  · cases hlast : lastRemoved (removedLines nearestIdx self.shiftLines) with
    | none =>
      obtain ⟨early, late, hsplit, _⟩ := hline
      rw [hsplit] at hlast
      cases early with
      | nil => cases hlast
      | cons _ _ => cases hlast
    | some last => rw [hline.unique (endsFirst_of_lastRemoved hlast)]

section
omit [LinearOrder K] [Field K]

theorem sort_eq_of_separate {lines sorted : List (ShiftLine K O)} {index : ℕ}
    (hseparate : Separate index lines) (hperm : sorted.Perm lines)
    (hsorted : sorted.Pairwise fun line other => line.startIdx ≤ other.startIdx) :
    sorted = lines := by
  have hstrict : lines.Pairwise fun line other => line.startIdx < other.startIdx := by
    clear hperm hsorted
    induction lines generalizing index with
    | nil => exact List.Pairwise.nil
    | cons first rest ih =>
      obtain ⟨_, hlt, hrest⟩ := hseparate
      refine List.pairwise_cons.mpr ⟨fun other hmem => ?_, ih hrest⟩
      exact hlt.trans_le (hrest.le_startIdx other hmem).1
  have hinj : ∀ line ∈ lines, ∀ other ∈ lines, line.startIdx = other.startIdx → line = other := by
    have hnodup : (lines.map ShiftLine.startIdx).Nodup :=
      List.pairwise_map.mpr (hstrict.imp fun hlt => hlt.ne)
    exact fun line hline other hother => List.inj_on_of_nodup_map hnodup hline hother
  refine List.Perm.eq_of_pairwise ?_ hsorted (hstrict.imp fun hlt => hlt.le) hperm
  exact fun line other hline hother hle hge =>
    hinj line (hperm.mem_iff.mp hline) other hother (le_antisymm hle hge)

theorem Separate.mono {index lower : ℕ}
    (hseparate : Separate index lines) (hle : lower ≤ index) : Separate lower lines := by
  cases lines with
  | nil => trivial
  | cons first rest => exact ⟨hle.trans hseparate.1, hseparate.2⟩

theorem exists_endsFirst (hne : lines ≠ []) :
    ∃ line, EndsFirst line lines := by
  cases lines with
  | nil => exact absurd rfl hne
  | cons first rest => exact ⟨_, endsFirst_of_lastRemoved rfl⟩

end

variable [IsStrictOrderedRing K]

theorem baseLevel_removeNoise (offset : K) : baseLevel (removeNoise offset) = baseLevel offset := by
  by_cases hsmall : |offset| < 1 / 10000
  · have hzero : ¬ (1 / 10000 : K) < |0| := by
      rw [abs_zero]
      exact not_lt.mpr (one_div_nonneg.mpr (by norm_num))
    rw [removeNoise, if_pos hsmall, baseLevel, if_neg hzero, baseLevel, if_neg hsmall.not_gt]
  · rw [removeNoise, if_neg hsmall]

theorem abs_shiftAt_sub_le (hsqrt : ∀ value, 0 ≤ env.sqrt value) (hsort : Sorts env)
    {self after : PathShifter K O} (hplaced : self.Placed) {nearestIdx : ℕ}
    (hreference : after.referencePath = self.referencePath)
    (hlines : after.shiftLines = env.sort (keptLines nearestIdx self.shiftLines))
    (hnone : removedLines nearestIdx self.shiftLines = [] →
      baseLevel after.baseOffset = baseLevel self.baseOffset)
    (hlast : removedLines nearestIdx self.shiftLines ≠ [] →
      ∃ line, EndsLast line (removedLines nearestIdx self.shiftLines) ∧
        after.baseOffset = removeNoise line.endShiftLength)
    (hseparate : Separate 0 self.shiftLines) {offsetBack : Bool} {early late : ShiftedPath K O}
    (hearly : self.generate env ⟨[], []⟩ offsetBack .linear = .ok (early, true))
    (hlate : after.generate env ⟨[], []⟩ offsetBack .linear = .ok (late, true)) {i : ℕ}
    (hbehind : nearestIdx < i) (hlt : i < self.referencePath.length) :
    |shiftAt late i - shiftAt early i| ≤ tolerance := by
  have hpath := hplaced.onPath
  have hfollows : Follows (arc env self.referencePath)
      (linearShift (arc env self.referencePath) self.shiftLines fun _ => baseLevel self.baseOffset)
      0 (baseLevel self.baseOffset) self.shiftLines := follows_linearShift hseparate fun _ _ => rfl
  obtain ⟨index, level, hfollowsKept, hkept, hindex, hlevelNone, hlevelLast⟩ :=
    follows_keptLines hseparate hfollows nearestIdx
  have hsub : ∀ line ∈ keptLines nearestIdx self.shiftLines, line ∈ self.shiftLines :=
    fun line hmem => List.mem_of_mem_filter hmem
  have hsorted : after.shiftLines = keptLines nearestIdx self.shiftLines :=
    hlines.trans (sort_eq_of_separate hkept (hsort _).1 (hsort _).2)
  have hafterPath : after.OnPath := by
    intro line hmem
    rw [hsorted] at hmem
    rw [hreference]
    exact hpath line (hsub line hmem)
  have hlevel : |baseLevel after.baseOffset - level| ≤ 1 / 10000 + epsilon := by
    by_cases hnil : removedLines nearestIdx self.shiftLines = []
    · rw [hlevelNone hnil, hnone hnil, sub_self, abs_zero]
      exact add_nonneg (one_div_nonneg.mpr (by norm_num)) epsilon_pos.le
    · obtain ⟨line, hline, hoffset⟩ := hlast hnil
      have hcut := abs_le.mp (hlevelLast line hline)
      have hbase := abs_le.mp (abs_baseLevel_sub_le line.endShiftLength)
      rw [hoffset, baseLevel_removeNoise, abs_le]
      constructor
      · linarith [hbase.1, hcut.2]
      · linarith [hbase.2, hcut.1]
  rw [shiftAt_of_generate_linear hafterPath hlate (hreference ▸ hlt),
    shiftAt_of_generate_linear hpath hearly hlt, hreference, hsorted]
  have hbound := abs_sub_le_of_follows (fun i j hle hlt => arc_mono hsqrt hle hlt)
    (fun line hmem => (hpath line (hsub line hmem)).2)
    (follows_linearShift (hkept.mono (Nat.zero_le index)) fun _ _ => rfl) hfollowsKept hlevel
    (by
      have hepsilon : (epsilon : K) ≤ 1 / 10000 :=
        one_div_le_one_div_of_le (by norm_num) (by norm_num)
      linarith)
    (show 0 < i by omega) (show index < i by omega)
  refine hbound.trans (le_of_eq ?_)
  unfold tolerance
  ring

/-- The removal keeps the shift exactly if the first line to end has, but for noise, the end
shift of the line that ends last. -/
theorem removeBehind_keeps_iff (hsqrt : ∀ value, 0 ≤ env.sqrt value) (hsort : Sorts env)
    {self : PathShifter K O} (hplaced : self.Placed) (nearestIdx : ℕ) :
    ∃ after, self.removeBehindShiftLineAndSetBaseOffset env nearestIdx = .ok after ∧
      (Keeps env self after nearestIdx ↔
        ∀ first, EndsFirst first (removedLines nearestIdx self.shiftLines) →
          ∃ line, EndsLast line (removedLines nearestIdx self.shiftLines) ∧
            removeNoise first.endShiftLength = removeNoise line.endShiftLength) := by
  obtain ⟨after, hafter, hreference, hlines, hnone, hfirst⟩ := removeBehind_eq hplaced nearestIdx
  refine ⟨after, hafter, ?_⟩
  constructor
  · intro hkeeps first hends
    have hne : removedLines nearestIdx self.shiftLines ≠ [] := by
      obtain ⟨early, late, hsplit, _⟩ := hends
      rw [hsplit]
      simp
    obtain ⟨line, hline, hoffset⟩ := hkeeps.baseOffset hne
    exact ⟨line, hline, (hfirst first hends).symm.trans hoffset⟩
  · intro hsame
    have hoffset : removedLines nearestIdx self.shiftLines ≠ [] →
        ∃ line, EndsLast line (removedLines nearestIdx self.shiftLines) ∧
          after.baseOffset = removeNoise line.endShiftLength := by
      intro hne
      obtain ⟨first, hends⟩ := exists_endsFirst hne
      obtain ⟨line, hline, hnoise⟩ := hsame first hends
      exact ⟨line, hline, (hfirst first hends).trans hnoise⟩
    refine ⟨hoffset, fun hoverlap offsetBack early late hearly hlate i hbehind hlt => ?_⟩
    have hseparate := hoverlap.separate (generate_eq_ok hearly).2.1
      fun line _ => Nat.zero_le line.startIdx
    refine abs_shiftAt_sub_le hsqrt hsort hplaced hreference hlines (fun hnil => ?_) hoffset
      hseparate hearly hlate hbehind hlt
    rw [hnone hnil, baseLevel_removeNoise]

end

theorem straightEnvironment_sorts : Sorts straightEnvironment := by
  intro lines
  refine ⟨List.perm_insertionSort _ _, ?_⟩
  have htotal : Std.Total fun line other : ShiftLine ℚ (ℚ × ℚ) => line.startIdx ≤ other.startIdx :=
    ⟨fun line other => le_total _ _⟩
  have htrans : IsTrans (ShiftLine ℚ (ℚ × ℚ)) fun line other => line.startIdx ≤ other.startIdx :=
    ⟨fun _ _ _ => le_trans⟩
  exact List.pairwise_insertionSort _ _

/-- Two lines that follow each other, both behind the vehicle. -/
def passedLines (first last : ℚ) : List (ShiftLine ℚ (ℚ × ℚ)) :=
  [lineBetween 0 2 first, lineBetween 3 5 last]

theorem findNearestIndex_straightShifter (lines : List (ShiftLine ℚ (ℚ × ℚ))) {idx : ℕ}
    (hidx : idx ∈ [0, 2, 3, 5]) :
    findNearestIndex (straightShifter lines).referencePath (poseAt idx).position = .ok idx := by
  change findNearestIndex ((List.range 7).map fun i : ℕ => poseAt i) _ = _
  revert idx
  decide +kernel

theorem straightShifter_placed (first last : ℚ) :
    (straightShifter (passedLines first last)).Placed where
  startIdx := fun line hmem => by
    rcases List.mem_pair.mp hmem with rfl | rfl
    · exact findNearestIndex_straightShifter _ (by decide)
    · exact findNearestIndex_straightShifter _ (by decide)
  endIdx := fun line hmem => by
    rcases List.mem_pair.mp hmem with rfl | rfl
    · exact findNearestIndex_straightShifter _ (by decide)
    · exact findNearestIndex_straightShifter _ (by decide)
  sorted := List.pairwise_pair.mpr (Nat.zero_le 3)

theorem passedLines_endsFirst (first last : ℚ) :
    EndsFirst (lineBetween 0 2 first) (passedLines first last) :=
  ⟨[], [lineBetween 3 5 last], rfl, fun other hmem => absurd hmem List.not_mem_nil,
    fun other hmem => by
      rw [List.mem_singleton.mp hmem]
      exact Nat.le_add_right 2 3⟩

/-- The shift has ended before the vehicle, and comes back when its lines are removed. -/
theorem passed_shift_comes_back :
    let self := straightShifter (passedLines 1 0)
    ∃ after early late,
      self.removeBehindShiftLineAndSetBaseOffset straightEnvironment 5 = .ok after ∧
      self.Placed ∧ NonOverlapping self.shiftLines ∧
      self.generate straightEnvironment ⟨[], []⟩ true .linear = .ok (early, true) ∧
      after.generate straightEnvironment ⟨[], []⟩ true .linear = .ok (late, true) ∧
      shiftAt early 6 = 0 ∧ shiftAt late 6 = 1 := by
  intro self
  have hplaced := straightShifter_placed 1 0
  obtain ⟨after, hafter, hreference, hlines, _, hfirst⟩ :=
    @removeBehind_eq _ _ _ _ straightEnvironment _ hplaced 5
  have hkept : after.shiftLines = [] := hlines.trans (by decide)
  have hoffset : after.baseOffset = 1 :=
    (hfirst _ (passedLines_endsFirst 1 0)).trans (by decide +kernel)
  have hafterPath : after.OnPath := fun line hmem => by
    rw [hkept] at hmem
    exact absurd hmem List.not_mem_nil
  have haccepted : Accepted self.shiftLines := by
    unfold Accepted
    decide
  obtain ⟨early, hearly⟩ := straightShifter_generate hplaced.onPath haccepted
  have hafterAccepted : Accepted after.shiftLines := fun line hmem => by
    rw [hkept] at hmem
    exact absurd hmem List.not_mem_nil
  obtain ⟨late, hlate⟩ : ∃ late,
      after.generate straightEnvironment ⟨[], []⟩ true .linear = .ok (late, true) :=
    generate_linear_succeeds hafterPath (hreference ▸ List.cons_ne_nil _ _) hafterAccepted _ _
  refine ⟨after, early, late, hafter, hplaced, by decide, hearly, hlate, ?_, ?_⟩
  · rw [shiftAt_of_generate_linear hplaced.onPath hearly (by decide)]
    decide +kernel
  · rw [shiftAt_of_generate_linear hafterPath hlate (by rw [hreference]; decide), hkept, hoffset]
    change baseLevel (1 : ℚ) = 1
    decide +kernel

/-- With the same end shifts the shift stays. -/
theorem passed_shift_stays :
    let self := straightShifter (passedLines 1 1)
    ∃ after, self.removeBehindShiftLineAndSetBaseOffset straightEnvironment 5 = .ok after ∧
      Keeps straightEnvironment self after 5 := by
  intro self
  have hsqrt : ∀ value, 0 ≤ straightEnvironment.sqrt value := Rat.sqrt_nonneg
  obtain ⟨after, hafter, hkeeps⟩ := removeBehind_keeps_iff hsqrt straightEnvironment_sorts
    (straightShifter_placed 1 1) 5
  refine ⟨after, hafter, hkeeps.mpr fun first hfirst => ?_⟩
  obtain rfl := hfirst.unique (passedLines_endsFirst 1 1)
  refine ⟨lineBetween 3 5 1, ⟨by decide, fun other hmem => ?_⟩, rfl⟩
  rcases List.mem_pair.mp hmem with rfl | rfl
  · decide
  · decide

end PathShifter

end AutowareUniverse.Planning
