import AutowareUniverse.Common.MotionUtils

/-!
# Differential map loader

The server answers a request for an area with the map cells that the client does not hold
yet and with the ids the client is to drop.  Reading a point cloud from a file and the
Euclidean norm are parameters.
-/

namespace AutowareUniverse.Map.DifferentialMapLoader

open Common.MotionUtils (Point)

section

variable {K Cloud : Type}

/-- `std::map`, keyed by ids. -/
abbrev Dict (V : Type) := Std.TreeMap String V

structure PCDFileMetadata (K : Type) where
  min : Point K
  max : Point K

structure AreaInfo (K : Type) where
  center : Point K
  radius : K

structure CellMetadata (K : Type) where
  minX : K
  minY : K
  maxX : K
  maxY : K

structure PointCloudMapCellWithID (K Cloud : Type) where
  cellId : String
  pointcloud : Cloud
  metadata : CellMetadata K

structure Response (K Cloud : Type) where
  newPointcloudWithIds : List (PointCloudMapCellWithID K Cloud)
  idsToRemove : List String

section

variable [Field K] [LinearOrder K] (hypot : K → K → K → K)

def sphereAndBoxOverlapExists (center : Point K) (radius : K) (boxMinPoint boxMaxPoint : Point K) :
    Bool :=
  let withinX (margin : K) : Bool :=
    boxMinPoint.x - margin ≤ center.x ∧ center.x ≤ boxMaxPoint.x + margin
  let withinY (margin : K) : Bool :=
    boxMinPoint.y - margin ≤ center.y ∧ center.y ≤ boxMaxPoint.y + margin
  let withinZ (margin : K) : Bool :=
    boxMinPoint.z - margin ≤ center.z ∧ center.z ≤ boxMaxPoint.z + margin
  let dx0 := center.x - boxMinPoint.x
  let dx1 := center.x - boxMaxPoint.x
  let dy0 := center.y - boxMinPoint.y
  let dy1 := center.y - boxMaxPoint.y
  let dz0 := center.z - boxMinPoint.z
  let dz1 := center.z - boxMaxPoint.z
  (withinX radius && withinY 0 && withinZ 0) || (withinX 0 && withinY radius && withinZ 0) ||
    (withinX 0 && withinY 0 && withinZ radius) ||
    (hypot dx0 dy0 dz0 ≤ radius || hypot dx1 dy0 dz0 ≤ radius ||
      hypot dx0 dy1 dz0 ≤ radius || hypot dx0 dy0 dz1 ≤ radius ||
      hypot dx0 dy1 dz1 ≤ radius || hypot dx1 dy0 dz1 ≤ radius ||
      hypot dx1 dy1 dz0 ≤ radius || hypot dx1 dy1 dz1 ≤ radius)

def isGridWithinQueriedArea (area : AreaInfo K) (metadata : PCDFileMetadata K) : Bool :=
  sphereAndBoxOverlapExists hypot area.center area.radius metadata.min metadata.max

end

structure DifferentialMapLoaderModule (K Cloud : Type) where
  allPcdFileMetadataDict : Dict (PCDFileMetadata K)
  /-- `pcl::io::loadPCDFile`; a file that cannot be read leaves the cloud empty. -/
  loadPCDFile : String → Cloud
  hypot : K → K → K → K

namespace DifferentialMapLoaderModule

variable (loader : DifferentialMapLoaderModule K Cloud)

def loadPointCloudMapCellWithID (path mapId : String) (metadata : PCDFileMetadata K) :
    PointCloudMapCellWithID K Cloud where
  cellId := mapId
  pointcloud := loader.loadPCDFile path
  metadata := ⟨metadata.min.x, metadata.min.y, metadata.max.x, metadata.max.y⟩

/-- The state of the loop over the map cells. -/
structure Loading (K Cloud : Type) where
  shouldRemove : List Bool
  newPointcloudWithIds : List (PointCloudMapCellWithID K Cloud)

variable [Field K] [LinearOrder K]

def loadCell (area : AreaInfo K) (cachedIds : List String) (loading : Loading K Cloud)
    (ele : String × PCDFileMetadata K) : Loading K Cloud :=
  if ¬isGridWithinQueriedArea loader.hypot area ele.2 then loading
  else
    match cachedIds.findIdx? (· = ele.1) with
    | some index => { loading with shouldRemove := loading.shouldRemove.set index false }
    | none =>
      { loading with
        newPointcloudWithIds := loading.newPointcloudWithIds ++
          [loader.loadPointCloudMapCellWithID ele.1 ele.1 ele.2] }

def differentialAreaLoad (area : AreaInfo K) (cachedIds : List String) : Response K Cloud :=
  let loading := loader.allPcdFileMetadataDict.toList.foldl (loader.loadCell area cachedIds)
    ⟨cachedIds.map fun _ => true, []⟩
  ⟨loading.newPointcloudWithIds,
    (cachedIds.zip loading.shouldRemove).filterMap fun cached =>
      if cached.2 then some cached.1 else none⟩

end DifferentialMapLoaderModule

end

/-!
## Spheres that reach a map cell

The overlap test looks at the faces and the corners of a box, but not along its edges.
-/

variable {K : Type} [Field K] [LinearOrder K]

def IsNorm (hypot : K → K → K → K) : Prop :=
  ∀ x y z, 0 ≤ hypot x y z ∧ hypot x y z ^ 2 = x ^ 2 + y ^ 2 + z ^ 2

def Overlaps (center : Point K) (radius : K) (boxMinPoint boxMaxPoint : Point K) : Prop :=
  ∃ p : Point K, (boxMinPoint.x ≤ p.x ∧ p.x ≤ boxMaxPoint.x) ∧
    (boxMinPoint.y ≤ p.y ∧ p.y ≤ boxMaxPoint.y) ∧ (boxMinPoint.z ≤ p.z ∧ p.z ≤ boxMaxPoint.z) ∧
    (p.x - center.x) ^ 2 + (p.y - center.y) ^ 2 + (p.z - center.z) ^ 2 ≤ radius ^ 2

/-- How far a coordinate is outside of a range. -/
def outside (lower upper value : K) : K := max 0 (max (lower - value) (value - upper))

/-- How far a coordinate is from the nearer end of a range. -/
def toEnd (lower upper value : K) : K := min |value - lower| |value - upper|

theorem outside_nonneg {lower upper value : K} : 0 ≤ outside lower upper value :=
  le_max_left ..

variable [IsStrictOrderedRing K] {lower upper value : K}

theorem outside_le_iff {radius : K} (hradius : 0 ≤ radius) :
    outside lower upper value ≤ radius ↔ lower - radius ≤ value ∧ value ≤ upper + radius := by
  rw [outside, max_le_iff, and_iff_right hradius, max_le_iff]
  exact and_congr sub_le_comm sub_le_iff_le_add'

theorem outside_eq_zero_iff : outside lower upper value = 0 ↔ lower ≤ value ∧ value ≤ upper := by
  rw [← outside_nonneg.ge_iff_eq', outside_le_iff le_rfl, sub_zero, add_zero]

theorem outside_below (hle : lower ≤ upper) (hlow : value < lower) :
    outside lower upper value = lower - value := by
  have hsides : value - upper ≤ lower - value := by linarith
  rw [outside, max_eq_left hsides, max_eq_right (sub_nonneg.mpr hlow.le)]

theorem outside_above (hle : lower ≤ upper) (hhigh : upper < value) :
    outside lower upper value = value - upper := by
  have hsides : lower - value ≤ value - upper := by linarith
  rw [outside, max_eq_right hsides, max_eq_right (sub_nonneg.mpr hhigh.le)]

theorem exists_sq_eq (value : K) (hle : lower ≤ upper) : ∃ p, (lower ≤ p ∧ p ≤ upper) ∧
    (p - value) ^ 2 = outside lower upper value ^ 2 := by
  rcases lt_or_ge value lower with hlow | hlower
  · exact ⟨lower, ⟨le_rfl, hle⟩, by rw [outside_below hle hlow]⟩
  · rcases lt_or_ge upper value with hhigh | hupper
    · exact ⟨upper, ⟨hle, le_rfl⟩, by rw [outside_above hle hhigh, sub_sq_comm]⟩
    · exact ⟨value, ⟨hlower, hupper⟩, by
        rw [outside_eq_zero_iff.mpr ⟨hlower, hupper⟩, sub_self]⟩

theorem outside_sq_le {p : K} (hlower : lower ≤ p) (hupper : p ≤ upper) :
    outside lower upper value ^ 2 ≤ (p - value) ^ 2 := by
  rw [sq_le_sq, abs_of_nonneg outside_nonneg, outside]
  refine max_le (abs_nonneg _) (max_le ?_ ?_)
  · exact (sub_le_sub_right hlower _).trans (le_abs_self _)
  · rw [abs_sub_comm]
    exact (sub_le_sub_left hupper _).trans (le_abs_self _)

omit [IsStrictOrderedRing K] in
theorem toEnd_sq_eq (lower upper value : K) : toEnd lower upper value ^ 2 = (value - lower) ^ 2 ∨
    toEnd lower upper value ^ 2 = (value - upper) ^ 2 := by
  rcases min_choice |value - lower| |value - upper| with hend | hend
  · exact .inl (by rw [toEnd, hend, sq_abs])
  · exact .inr (by rw [toEnd, hend, sq_abs])

theorem toEnd_sq_le (lower upper value : K) : toEnd lower upper value ^ 2 ≤ (value - lower) ^ 2 ∧
    toEnd lower upper value ^ 2 ≤ (value - upper) ^ 2 := by
  have hnonneg : 0 ≤ toEnd lower upper value := le_min (abs_nonneg _) (abs_nonneg _)
  constructor
  · exact sq_le_sq.mpr ((abs_of_nonneg hnonneg).trans_le (min_le_left ..))
  · exact sq_le_sq.mpr ((abs_of_nonneg hnonneg).trans_le (min_le_right ..))

theorem outside_sq_le_toEnd_sq (hle : lower ≤ upper) :
    outside lower upper value ^ 2 ≤ toEnd lower upper value ^ 2 := by
  rcases toEnd_sq_eq lower upper value with hend | hend
  · rw [hend, sub_sq_comm]
    exact outside_sq_le le_rfl hle
  · rw [hend, sub_sq_comm]
    exact outside_sq_le hle le_rfl

variable {hypot : K → K → K → K} {center boxMinPoint boxMaxPoint : Point K} {radius : K}

theorem IsNorm.le_iff (hhypot : IsNorm hypot) (hradius : 0 ≤ radius) (x y z : K) :
    hypot x y z ≤ radius ↔ x ^ 2 + (y ^ 2 + z ^ 2) ≤ radius ^ 2 := by
  rw [← sq_le_sq₀ (hhypot x y z).1 hradius, (hhypot x y z).2, add_assoc]

section

variable (center boxMinPoint boxMaxPoint : Point K)

def gapSq : K :=
  outside boxMinPoint.x boxMaxPoint.x center.x ^ 2 +
    (outside boxMinPoint.y boxMaxPoint.y center.y ^ 2 +
      outside boxMinPoint.z boxMaxPoint.z center.z ^ 2)

def cornerSq : K :=
  toEnd boxMinPoint.x boxMaxPoint.x center.x ^ 2 + (toEnd boxMinPoint.y boxMaxPoint.y center.y ^ 2 +
      toEnd boxMinPoint.z boxMaxPoint.z center.z ^ 2)

def FacesSide : Prop :=
  let withinX := boxMinPoint.x ≤ center.x ∧ center.x ≤ boxMaxPoint.x
  let withinY := boxMinPoint.y ≤ center.y ∧ center.y ≤ boxMaxPoint.y
  let withinZ := boxMinPoint.z ≤ center.z ∧ center.z ≤ boxMaxPoint.z
  withinY ∧ withinZ ∨ withinX ∧ withinZ ∨ withinX ∧ withinY

end

theorem overlaps_iff (hx : boxMinPoint.x ≤ boxMaxPoint.x) (hy : boxMinPoint.y ≤ boxMaxPoint.y)
    (hz : boxMinPoint.z ≤ boxMaxPoint.z) : Overlaps center radius boxMinPoint boxMaxPoint ↔
      gapSq center boxMinPoint boxMaxPoint ≤ radius ^ 2 := by
  rw [gapSq, ← add_assoc]
  constructor
  · rintro ⟨p, hpx, hpy, hpz, hp⟩
    exact (add_le_add_three (outside_sq_le hpx.1 hpx.2) (outside_sq_le hpy.1 hpy.2)
      (outside_sq_le hpz.1 hpz.2)).trans hp
  · intro hgap
    obtain ⟨x, hwithinX, hsqX⟩ := exists_sq_eq center.x hx
    obtain ⟨y, hwithinY, hsqY⟩ := exists_sq_eq center.y hy
    obtain ⟨z, hwithinZ, hsqZ⟩ := exists_sq_eq center.z hz
    exact ⟨⟨x, y, z⟩, hwithinX, hwithinY, hwithinZ, by rwa [hsqX, hsqY, hsqZ]⟩

theorem gapSq_le_cornerSq (hx : boxMinPoint.x ≤ boxMaxPoint.x)
    (hy : boxMinPoint.y ≤ boxMaxPoint.y) (hz : boxMinPoint.z ≤ boxMaxPoint.z) :
    gapSq center boxMinPoint boxMaxPoint ≤ cornerSq center boxMinPoint boxMaxPoint :=
  add_le_add (outside_sq_le_toEnd_sq hx)
    (add_le_add (outside_sq_le_toEnd_sq hy) (outside_sq_le_toEnd_sq hz))

/-- A range reached along one axis, the other two being in range. -/
theorem slab_iff {gap : K} {within₁ within₂ : Prop} (hradius : 0 ≤ radius)
    (hgap : within₁ → within₂ → gap = outside lower upper value ^ 2) :
    (within₁ ∧ within₂) ∧ gap ≤ radius ^ 2 ↔
      (lower - radius ≤ value ∧ value ≤ upper + radius) ∧ within₁ ∧ within₂ := by
  rw [← outside_le_iff hradius, ← sq_le_sq₀ outside_nonneg hradius, and_comm]
  exact and_congr_left fun ⟨h₁, h₂⟩ => by rw [hgap h₁ h₂]

theorem facesSide_gapSq_le_iff (hradius : 0 ≤ radius) : FacesSide center boxMinPoint boxMaxPoint ∧
        gapSq center boxMinPoint boxMaxPoint ≤ radius ^ 2 ↔
      (boxMinPoint.x - radius ≤ center.x ∧ center.x ≤ boxMaxPoint.x + radius) ∧
          (boxMinPoint.y ≤ center.y ∧ center.y ≤ boxMaxPoint.y) ∧
            boxMinPoint.z ≤ center.z ∧ center.z ≤ boxMaxPoint.z ∨
        (boxMinPoint.y - radius ≤ center.y ∧ center.y ≤ boxMaxPoint.y + radius) ∧
          (boxMinPoint.x ≤ center.x ∧ center.x ≤ boxMaxPoint.x) ∧
            boxMinPoint.z ≤ center.z ∧ center.z ≤ boxMaxPoint.z ∨
        (boxMinPoint.z - radius ≤ center.z ∧ center.z ≤ boxMaxPoint.z + radius) ∧
          (boxMinPoint.x ≤ center.x ∧ center.x ≤ boxMaxPoint.x) ∧
            boxMinPoint.y ≤ center.y ∧ center.y ≤ boxMaxPoint.y := by
  rw [FacesSide, or_and_right, or_and_right]
  refine or_congr (slab_iff hradius ?_) (or_congr (slab_iff hradius ?_) (slab_iff hradius ?_))
  · intro hy hz
    rw [gapSq, outside_eq_zero_iff.mpr hy, outside_eq_zero_iff.mpr hz]
    ring
  · intro hx hz
    rw [gapSq, outside_eq_zero_iff.mpr hx, outside_eq_zero_iff.mpr hz]
    ring
  · intro hx hy
    rw [gapSq, outside_eq_zero_iff.mpr hx, outside_eq_zero_iff.mpr hy]
    ring

/-- The slabs see the box from its sides, the corners only near them. -/
theorem sphereAndBoxOverlapExists_iff (hhypot : IsNorm hypot) (hradius : 0 ≤ radius) :
    sphereAndBoxOverlapExists hypot center radius boxMinPoint boxMaxPoint = true ↔
      FacesSide center boxMinPoint boxMaxPoint ∧ gapSq center boxMinPoint boxMaxPoint ≤ radius ^ 2 ∨
      cornerSq center boxMinPoint boxMaxPoint ≤ radius ^ 2 := by
  have hx := toEnd_sq_le boxMinPoint.x boxMaxPoint.x center.x
  have hy := toEnd_sq_le boxMinPoint.y boxMaxPoint.y center.y
  have hz := toEnd_sq_le boxMinPoint.z boxMaxPoint.z center.z
  rw [facesSide_gapSq_le_iff hradius]
  simp only [sphereAndBoxOverlapExists, Bool.or_eq_true, Bool.and_eq_true, decide_eq_true_eq,
    hhypot.le_iff hradius, sub_zero, add_zero]
  refine or_congr ⟨?_, ?_⟩ ⟨fun hcorner => ?_, fun hcorner => ?_⟩
  · rintro ((⟨⟨hx, hy⟩, hz⟩ | ⟨⟨hx, hy⟩, hz⟩) | ⟨⟨hx, hy⟩, hz⟩)
    · exact .inl ⟨hx, hy, hz⟩
    · exact .inr (.inl ⟨hy, hx, hz⟩)
    · exact .inr (.inr ⟨hz, hx, hy⟩)
  · rintro (⟨hx, hy, hz⟩ | ⟨hy, hx, hz⟩ | ⟨hz, hx, hy⟩)
    · exact .inl (.inl ⟨⟨hx, hy⟩, hz⟩)
    · exact .inl (.inr ⟨⟨hx, hy⟩, hz⟩)
    · exact .inr ⟨⟨hx, hy⟩, hz⟩
  · rw [cornerSq]
    rcases hcorner with ((((((h | h) | h) | h) | h) | h) | h) | h <;> linarith
  · -- the nearest corner is one of the eight
    rw [cornerSq] at hcorner
    rcases toEnd_sq_eq boxMinPoint.x boxMaxPoint.x center.x with hendX | hendX <;>
      rcases toEnd_sq_eq boxMinPoint.y boxMaxPoint.y center.y with hendY | hendY <;>
      rcases toEnd_sq_eq boxMinPoint.z boxMaxPoint.z center.z with hendZ | hendZ <;>
      rw [hendX, hendY, hendZ] at hcorner <;> simp only [hcorner, true_or, or_true]

/-- Beside an edge the corners are looked at alone: a sphere that reaches the edge between them
is not seen. -/
theorem sphereAndBoxOverlapExists_eq_overlaps_iff (hhypot : IsNorm hypot)
    (hx : boxMinPoint.x ≤ boxMaxPoint.x) (hy : boxMinPoint.y ≤ boxMaxPoint.y)
    (hz : boxMinPoint.z ≤ boxMaxPoint.z) (hradius : 0 ≤ radius) :
    ((sphereAndBoxOverlapExists hypot center radius boxMinPoint boxMaxPoint = true ↔
        Overlaps center radius boxMinPoint boxMaxPoint) ∧
      (Overlaps center radius boxMinPoint boxMaxPoint →
        isGridWithinQueriedArea hypot ⟨center, radius⟩ ⟨boxMinPoint, boxMaxPoint⟩ = true)) ↔
      FacesSide center boxMinPoint boxMaxPoint ∨ radius ^ 2 < gapSq center boxMinPoint boxMaxPoint ∨
        cornerSq center boxMinPoint boxMaxPoint ≤ radius ^ 2 := by
  have hcorner : cornerSq center boxMinPoint boxMaxPoint ≤ radius ^ 2 →
      gapSq center boxMinPoint boxMaxPoint ≤ radius ^ 2 := (gapSq_le_cornerSq hx hy hz).trans
  rw [isGridWithinQueriedArea, sphereAndBoxOverlapExists_iff hhypot hradius,
    overlaps_iff hx hy hz, ← not_le]
  tauto

def cell : Point ℝ × Point ℝ := (⟨0, 0, 0⟩, ⟨10, 10, 0⟩)

noncomputable def norm3 (x y z : ℝ) : ℝ := √(x ^ 2 + y ^ 2 + z ^ 2)

theorem isNorm_norm3 : IsNorm norm3 := fun _ _ _ =>
  ⟨Real.sqrt_nonneg _, Real.sq_sqrt (by positivity)⟩

theorem sphereAndBoxOverlapExists_eq_overlaps_iff_cell :
    ((sphereAndBoxOverlapExists norm3 ⟨-3, 5, 0⟩ 6 cell.1 cell.2 = true ↔
        Overlaps ⟨-3, 5, 0⟩ 6 cell.1 cell.2) ∧
      (Overlaps ⟨-3, 5, 0⟩ 6 cell.1 cell.2 →
        isGridWithinQueriedArea norm3 ⟨⟨-3, 5, 0⟩, 6⟩ ⟨cell.1, cell.2⟩ = true)) :=
  (sphereAndBoxOverlapExists_eq_overlaps_iff isNorm_norm3 (by norm_num [cell]) (by norm_num [cell])
    (by norm_num [cell]) (by norm_num)).mpr (.inl (.inl (by norm_num [cell])))

/-- A vehicle four meters above a flat cell, beside the middle of its edge. -/
theorem sphereAndBoxOverlapExists_edge : Overlaps ⟨-3, 5, 4⟩ 6 cell.1 cell.2 ∧
      sphereAndBoxOverlapExists norm3 ⟨-3, 5, 4⟩ 6 cell.1 cell.2 = false ∧
      isGridWithinQueriedArea norm3 ⟨⟨-3, 5, 4⟩, 6⟩ ⟨cell.1, cell.2⟩ = false := by
  have hseen : ¬sphereAndBoxOverlapExists norm3 ⟨-3, 5, 4⟩ 6 cell.1 cell.2 = true := by
    rw [sphereAndBoxOverlapExists_iff isNorm_norm3 (by norm_num)]
    norm_num [cell, FacesSide, cornerSq, toEnd]
  rw [Bool.not_eq_true] at hseen
  exact ⟨⟨⟨0, 5, 0⟩, by norm_num [cell], by norm_num [cell], by norm_num [cell], by norm_num⟩,
    hseen, hseen⟩

end AutowareUniverse.Map.DifferentialMapLoader
