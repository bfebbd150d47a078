import AutowareUniverse.Map.DifferentialMapLoader
import AutowareUniverse.Library.CellGrid

/-!
# Voxel grid map loader

The client of the differential map loader keeps the loaded map cells in a dictionary and
in an array over a window of the cell grid, and decides with both whether a point is close
to the map.  What the voxel filter of the point cloud library computes for a cell is a
parameter; debug output is left out.
-/

namespace AutowareUniverse.Perception.VoxelGridMapLoader

open Map.DifferentialMapLoader

open Common.MotionUtils (Point)

section

section

open Library.CellGrid (truncate)

variable {K Cloud : Type}

inductive Failure where
  | outOfRange
  | badOptionalAccess
  | nullPointer
  /-- The thread waits for a locked mutex. -/
  | blocked
  deriving DecidableEq

/-- `VoxelGridEx`: the leaf size and the index of the centroid of a leaf, or -1. -/
structure VoxelGrid (K : Type) where
  inverseLeafSize : K
  centroidIndexAt : ℤ × ℤ × ℤ → ℤ

structure MapGridVoxelInfo (K : Type) where
  mapCellVoxelGrid : VoxelGrid K
  /-- The centroids, if the pointer to them is not null. -/
  mapCellPcPtr : Option (List (Point K))
  minBX : K
  minBY : K
  maxBX : K
  maxBY : K

structure VoxelGridDynamicMapLoader (K Cloud : Type) where
  /-- The centroids of a cloud and their leaves, for a leaf size. -/
  filter : K → Cloud → VoxelGrid K × List (Point K)
  voxelLeafSize : K
  mapLoaderRadius : K
  currentPosition : Option (Point K)
  currentVoxelGridDict : Dict (MapGridVoxelInfo K)
  mapGridSizeX : K
  mapGridSizeY : K
  /-- Shared pointers, of which a missing one is null. -/
  currentVoxelGridArray : List (Option (MapGridVoxelInfo K))
  mapGridsX : ℤ
  mapGridsY : ℤ
  originX : K
  originY : K
  /-- Whether the mutex is locked. -/
  mutexLocked : Bool

namespace VoxelGridDynamicMapLoader

section

variable [Field K] (loader : VoxelGridDynamicMapLoader K Cloud)

def getCurrentMapIDs : List String := loader.currentVoxelGridDict.keys

/-- The item that `addMapCellAndFilter` inserts. -/
def filterMapCell (mapCellToAdd : PointCloudMapCellWithID K Cloud) : MapGridVoxelInfo K :=
  let filtered := loader.filter loader.voxelLeafSize mapCellToAdd.pointcloud
  { mapCellVoxelGrid := filtered.1
    mapCellPcPtr := some filtered.2
    minBX := mapCellToAdd.metadata.minX
    minBY := mapCellToAdd.metadata.minY
    maxBX := mapCellToAdd.metadata.maxX
    maxBY := mapCellToAdd.metadata.maxY }

/-- `std::map::insert` keeps an item that is there. -/
def addMapCellAndFilter (mapCellToAdd : PointCloudMapCellWithID K Cloud) :
    VoxelGridDynamicMapLoader K Cloud :=
  { loader with
    mapGridSizeX := mapCellToAdd.metadata.maxX - mapCellToAdd.metadata.minX
    mapGridSizeY := mapCellToAdd.metadata.maxY - mapCellToAdd.metadata.minY
    currentVoxelGridDict := loader.currentVoxelGridDict.insertIfNew mapCellToAdd.cellId
      (loader.filterMapCell mapCellToAdd) }

def removeMapCell (mapCellIdToRemove : String) : VoxelGridDynamicMapLoader K Cloud :=
  { loader with currentVoxelGridDict := loader.currentVoxelGridDict.erase mapCellIdToRemove }

/-- The loops of `updateDifferentialMapCells`. -/
def applyMapCells (mapCellsToAdd : List (PointCloudMapCellWithID K Cloud))
    (mapCellIdsToRemove : List String) : VoxelGridDynamicMapLoader K Cloud :=
  mapCellIdsToRemove.foldl removeMapCell (mapCellsToAdd.foldl addMapCellAndFilter loader)

end

/-! ## The array of map cells -/

section

variable [Field K] [LinearOrder K] [FloorRing K] (loader : VoxelGridDynamicMapLoader K Cloud)

def mapGridIndex (x y : K) : ℤ :=
  ⌊(x - loader.originX) / loader.mapGridSizeX⌋ +
    loader.mapGridsX * ⌊(y - loader.originY) / loader.mapGridSizeY⌋

/-- `std::vector::at` for an index that may be negative. -/
def setAt (array : List (Option (MapGridVoxelInfo K))) (index : ℤ) (info : MapGridVoxelInfo K) :
    Except Failure (List (Option (MapGridVoxelInfo K))) :=
  if 0 ≤ index ∧ index < array.length then .ok (array.set index.toNat (some info))
  else .error .outOfRange

/-- One iteration of the loop over the loaded cells. -/
def enterCell (array : List (Option (MapGridVoxelInfo K))) (kv : String × MapGridVoxelInfo K) :
    Except Failure (List (Option (MapGridVoxelInfo K))) :=
  let index := loader.mapGridIndex kv.2.minBX kv.2.minBY
  if loader.mapGridsX * loader.mapGridsY ≤ index then .ok array
  else setAt array index kv.2

/-- An item without a point cloud. -/
def emptyInfo : MapGridVoxelInfo K := ⟨⟨0, fun _ => -1⟩, none, 0, 0, 0, 0⟩

def setWindow (position : Point K) : VoxelGridDynamicMapLoader K Cloud :=
  let originX :=
    ⌊(position.x - loader.mapLoaderRadius) / loader.mapGridSizeX⌋ * loader.mapGridSizeX
  let originY :=
    ⌊(position.y - loader.mapLoaderRadius) / loader.mapGridSizeY⌋ * loader.mapGridSizeY
  { loader with
    originX := originX
    originY := originY
    mapGridsX := ⌈(position.x + loader.mapLoaderRadius - originX) / loader.mapGridSizeX⌉
    mapGridsY := ⌈(position.y + loader.mapLoaderRadius - originY) / loader.mapGridSizeY⌉ }

/-- The array of `assign`, whose size is the product of a count and a length. -/
def assignedArray : List (Option (MapGridVoxelInfo K)) :=
  List.replicate (truncate (loader.mapGridsX * loader.mapGridSizeY)).toNat (some emptyInfo)

def enterCells (array : List (Option (MapGridVoxelInfo K))) : List (String × MapGridVoxelInfo K) →
      List (Option (MapGridVoxelInfo K)) × Except Failure Unit
  | [] => (array, .ok ())
  | kv :: rest =>
    match loader.enterCell array kv with
    | .ok array => enterCells array rest
    | .error failure => (array, .error failure)

def updateVoxelGridArray : VoxelGridDynamicMapLoader K Cloud × Except Failure Unit :=
  match loader.currentPosition with
  | none => (loader, .error .badOptionalAccess)
  | some position =>
    let loader := loader.setWindow position
    if loader.mapGridsX * loader.mapGridsY = 0 then (loader, .ok ())
    else if loader.mutexLocked then (loader, .error .blocked)
    else
      match loader.enterCells loader.assignedArray loader.currentVoxelGridDict.toList with
      | (array, .ok ()) => ({ loader with currentVoxelGridArray := array }, .ok ())
      -- `unlock` is not reached
      | (array, .error failure) =>
        ({ loader with currentVoxelGridArray := array, mutexLocked := true }, .error failure)

def updateDifferentialMapCells (mapCellsToAdd : List (PointCloudMapCellWithID K Cloud))
    (mapCellIdsToRemove : List String) :
    VoxelGridDynamicMapLoader K Cloud × Except Failure Unit :=
  (loader.applyMapCells mapCellsToAdd mapCellIdsToRemove).updateVoxelGridArray

/-- The part of `request_update_map` after the response. -/
def receiveResponse (result : Response K Cloud) :
    VoxelGridDynamicMapLoader K Cloud × Except Failure Unit :=
  if result.newPointcloudWithIds.isEmpty ∧ result.idsToRemove.isEmpty then (loader, .ok ())
  else loader.updateDifferentialMapCells result.newPointcloudWithIds result.idsToRemove

end

/-! ## Closeness -/

variable [Field K] [LinearOrder K] [FloorRing K] (loader : VoxelGridDynamicMapLoader K Cloud)

/-- `getGridCoordinates`. -/
def getGridCoordinates (voxel : VoxelGrid K) (point : Point K) : ℤ × ℤ × ℤ :=
  (⌊point.x * voxel.inverseLeafSize⌋, ⌊point.y * voxel.inverseLeafSize⌋,
    ⌊point.z * voxel.inverseLeafSize⌋)

def isInVoxel (srcPoint targetPoint : Point K) (distanceThreshold : K) (map : List (Point K))
    (voxel : VoxelGrid K) : Except Failure Bool :=
  let voxelIndex := voxel.centroidIndexAt (getGridCoordinates voxel srcPoint)
  if voxelIndex = -1 then .ok false
  else if voxelIndex < 0 then .error .outOfRange
  else
    match map[voxelIndex.toNat]? with
    | none => .error .outOfRange
    | some centroid =>
      let distX := centroid.x - targetPoint.x
      let distY := centroid.y - targetPoint.y
      let distZ := centroid.z - targetPoint.z
      .ok (distX * distX + distY * distY + distZ * distZ < distanceThreshold * distanceThreshold)

/-- The 27 voxels around a point, in the order of the source. -/
def neighborOffsets : List (ℤ × ℤ × ℤ) :=
  [(0, 0, 0), (0, -1, -1), (0, -1, 0), (0, -1, 1), (0, 0, -1), (0, 0, 1), (0, 1, -1),
    (0, 1, 0), (0, 1, 1), (-1, -1, -1), (-1, -1, 0), (-1, -1, 1), (-1, 0, -1), (-1, 0, 0),
    (-1, 0, 1), (-1, 1, -1), (-1, 1, 0), (-1, 1, 1), (1, -1, -1), (1, -1, 0), (1, -1, 1),
    (1, 0, -1), (1, 0, 0), (1, 0, 1), (1, 1, -1), (1, 1, 0), (1, 1, 1)]

def shift (point : Point K) (distance : K) (offset : ℤ × ℤ × ℤ) : Point K :=
  ⟨point.x + offset.1 * distance, point.y + offset.2.1 * distance, point.z + offset.2.2 * distance⟩

/-- The first of some fallible checks that is true. -/
def anyM {α : Type} (check : α → Except Failure Bool) : List α → Except Failure Bool
  | [] => .ok false
  | first :: rest => do if ← check first then return true else anyM check rest

def isCloseToNeighborVoxels (point : Point K) (distanceThreshold : K)
    (map : Option (List (Point K))) (voxel : VoxelGrid K) : Except Failure Bool :=
  match map with
  | none => .ok false
  | some map =>
    anyM (fun offset =>
      isInVoxel (shift point distanceThreshold offset) point distanceThreshold map voxel)
      neighborOffsets

def isCloseToNextMapGrid (point : Point K) (currentMapGridIndex : ℤ) (_distanceThreshold : K) :
    Except Failure Bool :=
  let neighborMapGridIndex := loader.mapGridIndex point.x point.y
  if neighborMapGridIndex < 0 ∨ loader.currentVoxelGridArray.length ≤ neighborMapGridIndex ∨
      neighborMapGridIndex = currentMapGridIndex then .ok false
  else
    match loader.currentVoxelGridArray[neighborMapGridIndex.toNat]? with
    | none => .error .outOfRange
    | some (some _) => .ok false
    | some none => .error .nullPointer

def isCloseToMap (point : Point K) (distanceThreshold : K) : Except Failure Bool := do
  if loader.currentVoxelGridDict.isEmpty then return false
  let mapGridIndex := loader.mapGridIndex point.x point.y
  if mapGridIndex < 0 ∨ loader.currentVoxelGridArray.length ≤ mapGridIndex then return false
  let own ←
    match loader.currentVoxelGridArray[mapGridIndex.toNat]? with
    | none => .error .outOfRange
    | some none => .ok false
    | some (some info) =>
      isCloseToNeighborVoxels point distanceThreshold info.mapCellPcPtr info.mapCellVoxelGrid
  if own then return true
  anyM (fun offset =>
    loader.isCloseToNextMapGrid (shift point distanceThreshold offset) mapGridIndex
      distanceThreshold)
    [(-1, 0, 0), (1, 0, 0), (0, -1, 0), (0, 1, 0)]

end VoxelGridDynamicMapLoader

end

/-!
# The array of loaded map cells

The loop over the loaded cells fails at the first cell whose index is not in the array, and
otherwise leaves at every index the last cell that has it.  An index composed of a column and
a row says nothing about either of them when the column may be outside the window.
-/

variable {K Cloud : Type} [Field K] [LinearOrder K] [FloorRing K]

namespace VoxelGridDynamicMapLoader

variable {loader : VoxelGridDynamicMapLoader K Cloud}

section

variable (loader : VoxelGridDynamicMapLoader K Cloud)

def cellIndex (info : MapGridVoxelInfo K) : ℤ :=
  loader.mapGridIndex info.minBX info.minBY

/-! ## Entering cells -/

/-- One iteration for a cell does not throw. -/
def Enters (length : ℕ) (info : MapGridVoxelInfo K) :
    Prop :=
  loader.mapGridsX * loader.mapGridsY ≤ loader.cellIndex info ∨
    0 ≤ loader.cellIndex info ∧ loader.cellIndex info < length

theorem enterCell_cases
    (array : List (Option (MapGridVoxelInfo K))) (kv : String × MapGridVoxelInfo K) :
    (loader.mapGridsX * loader.mapGridsY ≤ loader.cellIndex kv.2 ∧
        loader.enterCell array kv = .ok array) ∨
      (loader.cellIndex kv.2 < loader.mapGridsX * loader.mapGridsY ∧
        0 ≤ loader.cellIndex kv.2 ∧ loader.cellIndex kv.2 < array.length ∧
        loader.enterCell array kv = .ok (array.set (loader.cellIndex kv.2).toNat (some kv.2))) ∨
      (¬loader.Enters array.length kv.2 ∧
        loader.enterCell array kv = .error .outOfRange) := by
  rw [enterCell]
  split
  case isTrue hskip => exact .inl ⟨hskip, rfl⟩
  case isFalse henter =>
      rw [setAt]
      split
      case isTrue hindex => exact .inr (.inl ⟨not_le.mp henter, hindex.1, hindex.2, rfl⟩)
      case isFalse hindex =>
          refine .inr (.inr ⟨?_, rfl⟩)
          rintro (hskip | hbounds)
          · exact henter hskip
          · exact hindex hbounds

end

/-- What the array holds after the loop. -/
structure Entered (loader : VoxelGridDynamicMapLoader K Cloud)
    (kvs : List (String × MapGridVoxelInfo K))
    (before after : List (Option (MapGridVoxelInfo K))) : Prop where
  length : after.length = before.length
  enters : ∀ kv ∈ kvs, loader.Enters before.length kv.2
  /-- The last cell of an index stays there. -/
  stored : ∀ kv ∈ kvs, loader.cellIndex kv.2 < loader.mapGridsX * loader.mapGridsY →
    ∃ last ∈ kvs, loader.cellIndex last.2 = loader.cellIndex kv.2 ∧
      after[(loader.cellIndex kv.2).toNat]? = some (some last.2)
  source : ∀ (i : ℕ) (slot : Option (MapGridVoxelInfo K)), after[i]? = some slot →
    before[i]? = some slot ∨ ∃ kv ∈ kvs, slot = some kv.2 ∧ loader.cellIndex kv.2 = i ∧
        loader.cellIndex kv.2 < loader.mapGridsX * loader.mapGridsY

namespace Entered

variable {kvs : List (String × MapGridVoxelInfo K)} {kv : String × MapGridVoxelInfo K}
  {before after : List (Option (MapGridVoxelInfo K))}

theorem nil : loader.Entered [] before before where
  length := rfl
  enters := fun _ hmem => absurd hmem List.not_mem_nil
  stored := fun _ hmem => absurd hmem List.not_mem_nil
  source := fun _ _ hslot => .inl hslot

theorem cons_skipped (hskip : loader.mapGridsX * loader.mapGridsY ≤ loader.cellIndex kv.2)
    (hrest : loader.Entered kvs before after) : loader.Entered (kv :: kvs) before after where
  length := hrest.length
  enters := List.forall_mem_cons.mpr ⟨.inl hskip, hrest.enters⟩
  stored := by
    refine List.forall_mem_cons.mpr ⟨fun hlt => absurd hlt (not_lt.mpr hskip), ?_⟩
    intro other hmem hlt
    obtain ⟨last, hlast, hsame, hstored⟩ := hrest.stored other hmem hlt
    exact ⟨last, List.mem_cons_of_mem _ hlast, hsame, hstored⟩
  source := by
    intro i slot hslot
    refine (hrest.source i slot hslot).imp_right ?_
    rintro ⟨other, hmem, hother⟩
    exact ⟨other, List.mem_cons_of_mem _ hmem, hother⟩

theorem cons_entered (hwindow : loader.cellIndex kv.2 < loader.mapGridsX * loader.mapGridsY)
    (hnonneg : 0 ≤ loader.cellIndex kv.2) (hlt : loader.cellIndex kv.2 < before.length)
    (hrest : loader.Entered kvs (before.set (loader.cellIndex kv.2).toNat (some kv.2)) after) :
    loader.Entered (kv :: kvs) before after where
  length := hrest.length.trans List.length_set
  enters := by
    refine List.forall_mem_cons.mpr ⟨.inr ⟨hnonneg, hlt⟩, fun other hmem => ?_⟩
    have henters := hrest.enters other hmem
    rwa [List.length_set] at henters
  stored := by
    have hlater : ∀ other ∈ kvs, loader.cellIndex other.2 < loader.mapGridsX * loader.mapGridsY →
        ∃ last ∈ kv :: kvs, loader.cellIndex last.2 = loader.cellIndex other.2 ∧
          after[(loader.cellIndex other.2).toNat]? = some (some last.2) := by
      intro other hmem hother
      obtain ⟨last, hlast, hsame, hstored⟩ := hrest.stored other hmem hother
      exact ⟨last, List.mem_cons_of_mem _ hlast, hsame, hstored⟩
    refine List.forall_mem_cons.mpr ⟨fun _ => ?_, hlater⟩
    have hindex : (loader.cellIndex kv.2).toNat < before.length := by omega
    have hset : (before.set (loader.cellIndex kv.2).toNat (some kv.2))[(loader.cellIndex
        kv.2).toNat]? = some (some kv.2) := by
      rw [List.getElem?_set_self hindex]
    have hslot : (loader.cellIndex kv.2).toNat < after.length := by
      rw [hrest.length, List.length_set]
      exact hindex
    -- the cell is still there unless a later one has its index
    rcases hrest.source _ _ (List.getElem?_eq_getElem hslot) with hkept | ⟨other, hmem, hother⟩
    · refine ⟨kv, List.mem_cons_self, rfl, ?_⟩
      rw [List.getElem?_eq_getElem hslot, ← hkept, hset]
    · obtain ⟨hotherSlot, hsame, hlater⟩ := hother
      refine ⟨other, List.mem_cons_of_mem _ hmem, by omega, ?_⟩
      rw [List.getElem?_eq_getElem hslot, hotherSlot]
  source := by
    intro i slot hslot
    rcases hrest.source i slot hslot with hkept | ⟨other, hmem, hother⟩
    · by_cases hi : (loader.cellIndex kv.2).toNat = i
      · rw [hi, List.getElem?_set_self (by omega)] at hkept
        have hindex : loader.cellIndex kv.2 = i := by omega
        exact .inr ⟨kv, List.mem_cons_self, (Option.some.inj hkept).symm, hindex, hwindow⟩
      · rw [List.getElem?_set_ne hi] at hkept
        exact .inl hkept
    · exact .inr ⟨other, List.mem_cons_of_mem _ hmem, hother⟩

end Entered

theorem entered_of_enterCells {kvs : List (String × MapGridVoxelInfo K)}
    {before after : List (Option (MapGridVoxelInfo K))}
    (hloop : loader.enterCells before kvs = (after, .ok ())) :
    loader.Entered kvs before after := by
  induction kvs generalizing before with
  | nil =>
    cases hloop
    exact .nil
  | cons kv kvs ih =>
    rw [enterCells] at hloop
    rcases loader.enterCell_cases before kv with
      ⟨hskip, heq⟩ | ⟨hwindow, hnonneg, hlt, heq⟩ | ⟨_, heq⟩
    · rw [heq] at hloop
      exact .cons_skipped hskip (ih hloop)
    · rw [heq] at hloop
      exact .cons_entered hwindow hnonneg hlt (ih hloop)
    · rw [heq] at hloop
      cases hloop

/-- The loop ends unless an access is out of range. -/
theorem enterCells_ok {kvs : List (String × MapGridVoxelInfo K)}
    {before : List (Option (MapGridVoxelInfo K))}
    (henters : ∀ kv ∈ kvs, loader.Enters before.length kv.2) :
    ∃ after, loader.enterCells before kvs = (after, .ok ()) := by
  induction kvs generalizing before with
  | nil => exact ⟨before, rfl⟩
  | cons kv kvs ih =>
    obtain ⟨hhead, htail⟩ := List.forall_mem_cons.mp henters
    rw [enterCells]
    rcases loader.enterCell_cases before kv with
      ⟨_, heq⟩ | ⟨_, _, _, heq⟩ | ⟨hout, _⟩
    · rw [heq]
      exact ih htail
    · rw [heq]
      apply ih
      rwa [List.length_set]
    · exact absurd hhead hout

end VoxelGridDynamicMapLoader

end

/-!
## The window around the vehicle

The cells of the window are numbered row by row.  A number that the loop accepts can belong
to a cell of the window or to one left or right of it, and the array is as long as a row of
the window times the length of a cell.
-/

variable {K Cloud : Type} [Field K] [LinearOrder K] [FloorRing K]

namespace VoxelGridDynamicMapLoader

section

/-! ## Columns and rows -/

section

variable (loader : VoxelGridDynamicMapLoader K Cloud) (position : Point K)

def windowColumn (x : K) : ℤ :=
  ⌊x / loader.mapGridSizeX⌋ - ⌊(position.x - loader.mapLoaderRadius) / loader.mapGridSizeX⌋

def windowRow (y : K) : ℤ :=
  ⌊y / loader.mapGridSizeY⌋ - ⌊(position.y - loader.mapLoaderRadius) / loader.mapGridSizeY⌋

def windowColumns : ℤ :=
  ⌈(position.x + loader.mapLoaderRadius) / loader.mapGridSizeX⌉ -
    ⌊(position.x - loader.mapLoaderRadius) / loader.mapGridSizeX⌋

def windowRows : ℤ :=
  ⌈(position.y + loader.mapLoaderRadius) / loader.mapGridSizeY⌉ -
    ⌊(position.y - loader.mapLoaderRadius) / loader.mapGridSizeY⌋

def windowNumber (x y : K) : ℤ :=
  loader.windowColumn position x + loader.windowColumns position * loader.windowRow position y

/-- The column and the row are those of a cell of the window. -/
def InWindow (x y : K) : Prop :=
  (0 ≤ loader.windowColumn position x ∧
    loader.windowColumn position x < loader.windowColumns position) ∧
  0 ≤ loader.windowRow position y ∧ loader.windowRow position y < loader.windowRows position

instance (x y : K) : Decidable (loader.InWindow position x y) :=
  inferInstanceAs (Decidable (_ ∧ _))

/-- The number of a loaded cell is beyond those of the window. -/
def Skipped (info : MapGridVoxelInfo K) : Prop :=
  loader.windowColumns position * loader.windowRows position ≤
    loader.windowNumber position info.minBX info.minBY

/-- The number of a loaded cell is below the length of the array. -/
def Fits (info : MapGridVoxelInfo K) : Prop :=
  0 ≤ loader.windowNumber position info.minBX info.minBY ∧
    loader.windowNumber position info.minBX info.minBY <
      ⌊loader.windowColumns position * loader.mapGridSizeY⌋

end

variable {loader : VoxelGridDynamicMapLoader K Cloud} {position : Point K}

def withArray (loader : VoxelGridDynamicMapLoader K Cloud) (position : Point K)
    (array : List (Option (MapGridVoxelInfo K))) : VoxelGridDynamicMapLoader K Cloud :=
  { loader.setWindow position with currentVoxelGridArray := array }

section

variable [IsStrictOrderedRing K]

theorem floor_sub_mul_div {size : K} (hsize : 0 < size) (a : K) (n : ℤ) :
    ⌊(a - n * size) / size⌋ = ⌊a / size⌋ - n := by
  rw [sub_div, mul_div_cancel_right₀ _ hsize.ne', Int.floor_sub_intCast]

theorem ceil_sub_mul_div {size : K} (hsize : 0 < size) (a : K) (n : ℤ) :
    ⌈(a - n * size) / size⌉ = ⌈a / size⌉ - n := by
  rw [sub_div, mul_div_cancel_right₀ _ hsize.ne', Int.ceil_sub_intCast]

theorem setWindow_mapGridsX (hx : 0 < loader.mapGridSizeX) :
    (loader.setWindow position).mapGridsX = loader.windowColumns position :=
  ceil_sub_mul_div hx _ _

theorem setWindow_mapGridsY (hy : 0 < loader.mapGridSizeY) :
    (loader.setWindow position).mapGridsY = loader.windowRows position :=
  ceil_sub_mul_div hy _ _

theorem setWindow_mapGridIndex (hx : 0 < loader.mapGridSizeX) (hy : 0 < loader.mapGridSizeY)
    (x y : K) :
    (loader.setWindow position).mapGridIndex x y = loader.windowNumber position x y := by
  rw [mapGridIndex, setWindow_mapGridsX hx]
  exact congrArg₂ (fun column row => column + loader.windowColumns position * row)
    (floor_sub_mul_div hx x _) (floor_sub_mul_div hy y _)

/-- A window of positive width has cells. -/
theorem floor_lt_ceil {radius size : K} (hradius : 0 < radius) (hsize : 0 < size) (a : K) :
    0 < ⌈(a + radius) / size⌉ - ⌊(a - radius) / size⌋ := by
  have hlt : (⌊(a - radius) / size⌋ : K) < ⌈(a + radius) / size⌉ := by
    calc (⌊(a - radius) / size⌋ : K) ≤ (a - radius) / size := Int.floor_le _
      _ < (a + radius) / size := (div_lt_div_iff_of_pos_right hsize).mpr (by linarith)
      _ ≤ ⌈(a + radius) / size⌉ := Int.le_ceil _
  exact sub_pos.mpr (Int.cast_lt.mp hlt)

theorem windowColumns_pos (hradius : 0 < loader.mapLoaderRadius) (hx : 0 < loader.mapGridSizeX) :
    0 < loader.windowColumns position :=
  floor_lt_ceil hradius hx _

theorem windowRows_pos (hradius : 0 < loader.mapLoaderRadius) (hy : 0 < loader.mapGridSizeY) :
    0 < loader.windowRows position :=
  floor_lt_ceil hradius hy _

omit [IsStrictOrderedRing K] in
theorem windowNumber_lt {x y : K} (hwindow : loader.InWindow position x y) :
    loader.windowNumber position x y <
      loader.windowColumns position * loader.windowRows position := by
  obtain ⟨⟨_, hcolumn⟩, _, hrow⟩ := hwindow
  have hcolumns : 0 ≤ loader.windowColumns position := by linarith
  calc loader.windowNumber position x y
      < loader.windowColumns position +
          loader.windowColumns position * loader.windowRow position y := by
        rw [windowNumber]
        linarith
    _ = loader.windowColumns position * (loader.windowRow position y + 1) := by ring
    _ ≤ loader.windowColumns position * loader.windowRows position :=
        mul_le_mul_of_nonneg_left hrow hcolumns

theorem exists_windowNumber (position : Point K) (hx : 0 < loader.mapGridSizeX)
    (hy : 0 < loader.mapGridSizeY) (number row : ℤ) :
    ∃ point : Point K, loader.windowRow position point.y = row ∧
      loader.windowNumber position point.x point.y = number := by
  have hfloor : ∀ {size : K}, 0 < size → ∀ n m : ℤ, ⌊((n + m : ℤ) * size) / size⌋ - m = n := by
    intro size hsize n m
    rw [mul_div_cancel_right₀ _ hsize.ne', Int.floor_intCast, add_sub_cancel_right]
  refine ⟨⟨((number - loader.windowColumns position * row +
    ⌊(position.x - loader.mapLoaderRadius) / loader.mapGridSizeX⌋ : ℤ) : K) * loader.mapGridSizeX,
    ((row + ⌊(position.y - loader.mapLoaderRadius) / loader.mapGridSizeY⌋ : ℤ) : K) *
      loader.mapGridSizeY, 0⟩, hfloor hy _ _, ?_⟩
  rw [windowNumber, windowRow, windowColumn, hfloor hx, hfloor hy, sub_add_cancel]

end

section

omit [LinearOrder K] [FloorRing K]

variable {P : MapGridVoxelInfo K → Prop}

def AllCells (P : MapGridVoxelInfo K → Prop) (loader : VoxelGridDynamicMapLoader K Cloud) : Prop :=
  ∀ kv ∈ loader.currentVoxelGridDict.toList, P kv.2

theorem AllCells.addMapCellAndFilter (hall : loader.AllCells P)
    {cell : PointCloudMapCellWithID K Cloud} (hcell : P (loader.filterMapCell cell)) :
    (loader.addMapCellAndFilter cell).AllCells P := by
  intro kv hmem
  have hsome := Std.TreeMap.mem_toList_iff_getElem?_eq_some.mp hmem
  rw [VoxelGridDynamicMapLoader.addMapCellAndFilter, Std.TreeMap.getElem?_insertIfNew] at hsome
  split at hsome
  · rw [← Option.some.inj hsome]
    exact hcell
  · exact hall kv (Std.TreeMap.mem_toList_iff_getElem?_eq_some.mpr hsome)

omit [Field K] in
theorem AllCells.removeMapCell (hall : loader.AllCells P) (cellId : String) :
    (loader.removeMapCell cellId).AllCells P := by
  intro kv hmem
  have hsome := Std.TreeMap.mem_toList_iff_getElem?_eq_some.mp hmem
  rw [VoxelGridDynamicMapLoader.removeMapCell, Std.TreeMap.getElem?_erase] at hsome
  split at hsome
  · cases hsome
  · exact hall kv (Std.TreeMap.mem_toList_iff_getElem?_eq_some.mpr hsome)

theorem AllCells.applyMapCells (hall : loader.AllCells P)
    (hcell : ∀ cell, P (loader.filterMapCell cell))
    (cells : List (PointCloudMapCellWithID K Cloud)) (ids : List String) :
    (loader.applyMapCells cells ids).AllCells P := by
  have hadded : (cells.foldl VoxelGridDynamicMapLoader.addMapCellAndFilter loader).AllCells P := by
    induction cells generalizing loader with
    | nil => exact hall
    | cons cell cells ih => exact ih (hall.addMapCellAndFilter (hcell cell)) hcell
  exact List.foldlRecOn ids _ (motive := AllCells P) hadded
    fun _ hkept id _ => hkept.removeMapCell id

def HasClouds (loader : VoxelGridDynamicMapLoader K Cloud) : Prop :=
  loader.AllCells (·.mapCellPcPtr ≠ none)

theorem HasClouds.applyMapCells (hclouds : loader.HasClouds)
    (cells : List (PointCloudMapCellWithID K Cloud)) (ids : List String) :
    (loader.applyMapCells cells ids).HasClouds :=
  AllCells.applyMapCells hclouds (fun _ => Option.some_ne_none _) cells ids

end

/-- The cell whose points `isCloseToMap` compares with a point. -/
def consultedCell (loader : VoxelGridDynamicMapLoader K Cloud) (point : Point K) :
    Option (MapGridVoxelInfo K) :=
  let index := loader.mapGridIndex point.x point.y
  if index < 0 then none
  else (loader.currentVoxelGridArray[index.toNat]?.join).filter (·.mapCellPcPtr.isSome)

theorem consultedCell_eq_some {point : Point K} {info : MapGridVoxelInfo K} :
    loader.consultedCell point = some info ↔ 0 ≤ loader.mapGridIndex point.x point.y ∧
      loader.currentVoxelGridArray[(loader.mapGridIndex point.x point.y).toNat]? =
        some (some info) ∧ info.mapCellPcPtr ≠ none := by
  rw [consultedCell]
  split
  case isTrue hneg =>
      constructor
      · intro hnone
        cases hnone
      · rintro ⟨hnonneg, _⟩
        exact absurd hneg (not_lt.mpr hnonneg)
  case isFalse hnonneg =>
      rw [Option.filter_eq_some_iff, Option.join_eq_some_iff, Option.isSome_iff_ne_none]
      exact ⟨fun hslot => ⟨not_lt.mp hnonneg, hslot⟩, And.right⟩

/-- Neighbouring cells are never compared with, so that the result is that of one cell. -/
theorem isCloseToNextMapGrid_eq (hnull : none ∉ loader.currentVoxelGridArray) (point : Point K)
    (index : ℤ) (distanceThreshold : K) :
    loader.isCloseToNextMapGrid point index distanceThreshold = .ok false := by
  rw [isCloseToNextMapGrid]
  split
  case isTrue => rfl
  case isFalse hbounds =>
      push Not at hbounds
      have hlt : (loader.mapGridIndex point.x point.y).toNat <
          loader.currentVoxelGridArray.length := by omega
      rw [List.getElem?_eq_getElem hlt]
      cases hslot : loader.currentVoxelGridArray[(loader.mapGridIndex point.x point.y).toNat] with
      | none => exact absurd (hslot ▸ List.getElem_mem hlt) hnull
      | some info => rfl

theorem anyM_eq_false {α : Type} {check : α → Except Failure Bool} {items : List α}
    (hcheck : ∀ item ∈ items, check item = .ok false) : anyM check items = .ok false := by
  induction items with
  | nil => rfl
  | cons first rest ih =>
    obtain ⟨hfirst, hrest⟩ := List.forall_mem_cons.mp hcheck
    rw [anyM, hfirst]
    exact ih hrest

theorem isCloseToMap_eq (hnull : none ∉ loader.currentVoxelGridArray)
    (hloaded : loader.currentVoxelGridDict.isEmpty = false) (point : Point K)
    (distanceThreshold : K) :
    loader.isCloseToMap point distanceThreshold =
      match loader.consultedCell point with
      | none => .ok false
      | some info =>
        isCloseToNeighborVoxels point distanceThreshold info.mapCellPcPtr
          info.mapCellVoxelGrid := by
  have hnext : anyM (fun offset => loader.isCloseToNextMapGrid
      (shift point distanceThreshold offset) (loader.mapGridIndex point.x point.y)
      distanceThreshold) [(-1, 0, 0), (1, 0, 0), (0, -1, 0), (0, 1, 0)] = .ok false :=
    anyM_eq_false fun offset _ => isCloseToNextMapGrid_eq hnull _ _ _
  have hown : ∀ own : Except Failure Bool,
      (own >>= fun found => if found then pure true else .ok false) = own := by
    rintro (failure | found)
    · rfl
    · cases found <;> rfl
  rw [isCloseToMap, hloaded, consultedCell]
  simp only [Bool.false_eq_true, if_false, hnext]
  by_cases hneg : loader.mapGridIndex point.x point.y < 0
  · rw [if_pos hneg, if_pos (.inl hneg)]
    rfl
  rw [if_neg hneg]
  by_cases hbeyond : loader.currentVoxelGridArray.length ≤ loader.mapGridIndex point.x point.y
  · have hindex : loader.currentVoxelGridArray.length ≤
        (loader.mapGridIndex point.x point.y).toNat := by omega
    rw [if_pos (.inr hbeyond), List.getElem?_eq_none hindex]
    rfl
  have hindex : (loader.mapGridIndex point.x point.y).toNat <
      loader.currentVoxelGridArray.length := by omega
  rw [if_neg (not_or.mpr ⟨hneg, hbeyond⟩), List.getElem?_eq_getElem hindex]
  cases hslot : loader.currentVoxelGridArray[(loader.mapGridIndex point.x point.y).toNat] with
  | none => rfl
  | some info =>
    rw [Option.join_some, Option.filter_some]
    refine (hown _).trans ?_
    cases hcloud : info.mapCellPcPtr with
    | none => rfl
    | some cloud =>
      rw [Option.isSome_some, if_pos rfl, ← hcloud]

/-! ## Safety of an update -/

variable (loader position)

/-- What an update is to establish around a position. -/
structure ArraySafe (updated : VoxelGridDynamicMapLoader K Cloud × Except Failure Unit) :
    Prop where
  completes : updated.2 = .ok ()
  unlocked : updated.1.mutexLocked = false
  /-- A point of a loaded cell of the window is compared with that cell. -/
  mapsCells : ∀ kv ∈ loader.currentVoxelGridDict.toList,
    loader.InWindow position kv.2.minBX kv.2.minBY → ∀ point : Point K,
    (kv.2.minBX ≤ point.x ∧ point.x < kv.2.maxBX) ∧ (kv.2.minBY ≤ point.y ∧ point.y < kv.2.maxBY) →
    updated.1.consultedCell point = some kv.2
  /-- A point beside the window is not compared with a cell of another row. -/
  keepsRows : ∀ (point : Point K) (info : MapGridVoxelInfo K),
    ¬loader.InWindow position point.x point.y → updated.1.consultedCell point = some info →
    loader.windowRow position info.minBY = loader.windowRow position point.y

variable {loader position} [IsStrictOrderedRing K]

theorem length_assignedArray (hradius : 0 < loader.mapLoaderRadius)
    (hx : 0 < loader.mapGridSizeX) (hy : 0 < loader.mapGridSizeY) :
    ((loader.setWindow position).assignedArray.length : ℤ) =
      ⌊loader.windowColumns position * loader.mapGridSizeY⌋ := by
  have hcolumns : (0 : K) < loader.windowColumns position :=
    Int.cast_pos.mpr (windowColumns_pos hradius hx)
  have hlength := (mul_pos hcolumns hy).le
  rw [assignedArray, List.length_replicate, setWindow_mapGridsX hx]
  change ((Library.CellGrid.truncate
    (loader.windowColumns position * loader.mapGridSizeY)).toNat : ℤ) = _
  rw [Library.CellGrid.truncate_of_nonneg hlength]
  exact Int.toNat_of_nonneg (Int.floor_nonneg.mpr hlength)

theorem enters_setWindow (hradius : 0 < loader.mapLoaderRadius)
    (hx : 0 < loader.mapGridSizeX) (hy : 0 < loader.mapGridSizeY) (info : MapGridVoxelInfo K) :
    (loader.setWindow position).Enters (loader.setWindow position).assignedArray.length info ↔
      loader.Skipped position info ∨ loader.Fits position info := by
  rw [Enters, cellIndex, setWindow_mapGridIndex hx hy, setWindow_mapGridsX hx,
    setWindow_mapGridsY hy, length_assignedArray hradius hx hy]
  rfl

theorem updateVoxelGridArray_cases (hposition : loader.currentPosition = some position)
    (hradius : 0 < loader.mapLoaderRadius) (hx : 0 < loader.mapGridSizeX)
    (hy : 0 < loader.mapGridSizeY) (hunlocked : loader.mutexLocked = false) :
    (∃ array, (loader.setWindow position).Entered loader.currentVoxelGridDict.toList
        (loader.setWindow position).assignedArray array ∧
      loader.updateVoxelGridArray = (loader.withArray position array, .ok ())) ∨
    ((∃ kv ∈ loader.currentVoxelGridDict.toList,
        ¬(loader.Skipped position kv.2 ∨ loader.Fits position kv.2)) ∧
      ∃ failure, loader.updateVoxelGridArray.2 = .error failure) := by
  have hcells : (loader.setWindow position).mapGridsX * (loader.setWindow position).mapGridsY ≠ 0 := by
    rw [setWindow_mapGridsX hx, setWindow_mapGridsY hy]
    exact (mul_pos (windowColumns_pos hradius hx) (windowRows_pos hradius hy)).ne'
  have hfree : (loader.setWindow position).mutexLocked ≠ true := by
    rw [setWindow, hunlocked]
    exact Bool.false_ne_true
  rw [updateVoxelGridArray, hposition]
  dsimp only
  rw [if_neg hcells, if_neg hfree]
  cases hloop : (loader.setWindow position).enterCells (loader.setWindow position).assignedArray
      (loader.setWindow position).currentVoxelGridDict.toList with
  | mk array result =>
    cases result with
    | ok _ => exact .inl ⟨array, entered_of_enterCells hloop, rfl⟩
    | error failure =>
      refine .inr ⟨?_, failure, rfl⟩
      by_contra hnone
      push Not at hnone
      obtain ⟨after, hafter⟩ := enterCells_ok fun kv hmem =>
        (enters_setWindow hradius hx hy kv.2).mpr (hnone kv hmem)
      cases hloop.symm.trans hafter

theorem updateVoxelGridArray_completes_iff (hposition : loader.currentPosition = some position)
    (hradius : 0 < loader.mapLoaderRadius) (hx : 0 < loader.mapGridSizeX)
    (hy : 0 < loader.mapGridSizeY) (hunlocked : loader.mutexLocked = false) :
    loader.updateVoxelGridArray.2 = .ok () ∧ loader.updateVoxelGridArray.1.mutexLocked = false ↔
      ∀ kv ∈ loader.currentVoxelGridDict.toList,
        loader.Skipped position kv.2 ∨ loader.Fits position kv.2 := by
  rcases updateVoxelGridArray_cases hposition hradius hx hy hunlocked with
    ⟨array, hentered, heq⟩ | ⟨⟨kv, hmem, hout⟩, failure, herror⟩
  · rw [heq]
    constructor
    · intro _ kv hmem
      exact (enters_setWindow hradius hx hy kv.2).mp (hentered.enters kv hmem)
    · intro _
      exact ⟨rfl, hunlocked⟩
  · rw [herror]
    constructor
    · rintro ⟨hok, _⟩
      cases hok
    · intro hall
      exact absurd (hall kv hmem) hout

variable {array : List (Option (MapGridVoxelInfo K))}

theorem exists_of_consultedCell (hx : 0 < loader.mapGridSizeX) (hy : 0 < loader.mapGridSizeY)
    (hentered : (loader.setWindow position).Entered loader.currentVoxelGridDict.toList
      (loader.setWindow position).assignedArray array)
    {point : Point K} {info : MapGridVoxelInfo K}
    (hconsulted : (loader.withArray position array).consultedCell point = some info) :
    ∃ kv ∈ loader.currentVoxelGridDict.toList, kv.2 = info ∧ ¬loader.Skipped position kv.2 ∧
      loader.windowNumber position kv.2.minBX kv.2.minBY =
        loader.windowNumber position point.x point.y := by
  obtain ⟨hnonneg, hslot, hcloud⟩ := consultedCell_eq_some.mp hconsulted
  rcases hentered.source _ _ hslot with hempty | ⟨kv, hmem, hsame, hindex, hwindow⟩
  · have hmem := List.mem_of_getElem? hempty
    rw [assignedArray] at hmem
    have hinfo := Option.some.inj (List.eq_of_mem_replicate hmem)
    rw [hinfo] at hcloud
    exact absurd rfl hcloud
  · rw [Int.toNat_of_nonneg hnonneg] at hindex
    rw [cellIndex, setWindow_mapGridIndex hx hy] at hindex hwindow
    rw [setWindow_mapGridsX hx, setWindow_mapGridsY hy] at hwindow
    exact ⟨kv, hmem, (Option.some.inj hsame).symm, not_le.mpr hwindow,
      hindex.trans (setWindow_mapGridIndex hx hy point.x point.y)⟩

theorem exists_consultedCell (hx : 0 < loader.mapGridSizeX) (hy : 0 < loader.mapGridSizeY)
    (hentered : (loader.setWindow position).Entered loader.currentVoxelGridDict.toList
      (loader.setWindow position).assignedArray array)
    (hclouds : loader.HasClouds) {kv : String × MapGridVoxelInfo K}
    (hmem : kv ∈ loader.currentVoxelGridDict.toList) (hskipped : ¬loader.Skipped position kv.2) :
    ∃ last ∈ loader.currentVoxelGridDict.toList,
      loader.windowNumber position last.2.minBX last.2.minBY =
        loader.windowNumber position kv.2.minBX kv.2.minBY ∧
      ∀ point : Point K, loader.windowNumber position point.x point.y =
          loader.windowNumber position kv.2.minBX kv.2.minBY →
        (loader.withArray position array).consultedCell point = some last.2 := by
  have hindex : ∀ info : MapGridVoxelInfo K, (loader.setWindow position).cellIndex info =
      loader.windowNumber position info.minBX info.minBY :=
    fun info => setWindow_mapGridIndex hx hy _ _
  have hwindow : (loader.setWindow position).cellIndex kv.2 <
      (loader.setWindow position).mapGridsX * (loader.setWindow position).mapGridsY := by
    rw [hindex, setWindow_mapGridsX hx, setWindow_mapGridsY hy]
    exact not_le.mp hskipped
  have hnonneg : 0 ≤ (loader.setWindow position).cellIndex kv.2 := by
    rcases hentered.enters kv hmem with hbeyond | hbounds
    · exact absurd hwindow (not_lt.mpr hbeyond)
    · exact hbounds.1
  obtain ⟨last, hlast, hsame, hstored⟩ := hentered.stored kv hmem hwindow
  rw [hindex, hindex] at hsame
  refine ⟨last, hlast, hsame, ?_⟩
  intro point hnumber
  have hpoint : (loader.setWindow position).mapGridIndex point.x point.y =
      (loader.setWindow position).cellIndex kv.2 := by
    rw [setWindow_mapGridIndex hx hy, hnumber, hindex]
  apply consultedCell_eq_some.mpr
  refine ⟨hnonneg.trans_eq hpoint.symm, ?_, hclouds last hlast⟩
  exact (congrArg (fun index : ℤ => array[index.toNat]?) hpoint).trans hstored

theorem exists_consultedCell_beside (hx : 0 < loader.mapGridSizeX) (hy : 0 < loader.mapGridSizeY)
    (hentered : (loader.setWindow position).Entered loader.currentVoxelGridDict.toList
      (loader.setWindow position).assignedArray array)
    (hclouds : loader.HasClouds) {kv : String × MapGridVoxelInfo K}
    (hmem : kv ∈ loader.currentVoxelGridDict.toList) (hskipped : ¬loader.Skipped position kv.2) :
    ∃ (point : Point K) (info : MapGridVoxelInfo K), ¬loader.InWindow position point.x point.y ∧
      (loader.withArray position array).consultedCell point = some info ∧
      loader.windowRow position info.minBY ≠ loader.windowRow position point.y := by
  obtain ⟨last, _, _, hconsulted⟩ := exists_consultedCell hx hy hentered hclouds hmem hskipped
  -- a row that is neither one of the window nor that of the cell
  obtain ⟨point, hrow, hnumber⟩ := exists_windowNumber position hx hy
    (loader.windowNumber position kv.2.minBX kv.2.minBY)
    (max (loader.windowRows position) (loader.windowRow position last.2.minBY + 1))
  refine ⟨point, last.2, ?_, hconsulted point hnumber, ?_⟩
  · rintro ⟨_, _, hlt⟩
    rw [hrow] at hlt
    exact absurd (le_max_left _ _) (not_le.mpr hlt)
  · rw [hrow]
    have hle := le_max_right (loader.windowRows position)
      (loader.windowRow position last.2.minBY + 1)
    exact (Int.lt_of_add_one_le hle).ne

/-- Before the first response. -/
def emptyLoader : VoxelGridDynamicMapLoader ℚ Unit where
  filter leafSize _ := (⟨leafSize⁻¹, fun _ => -1⟩, [])
  voxelLeafSize := 1
  mapLoaderRadius := 4
  currentPosition := some ⟨0, 0, 0⟩
  currentVoxelGridDict := ∅
  mapGridSizeX := -1
  mapGridSizeY := -1
  currentVoxelGridArray := []
  mapGridsX := 0
  mapGridsY := 0
  originX := 0
  originY := 0
  mutexLocked := false

/-- A cell of two by two metres in the third row and the second column of four. -/
def upperCell : PointCloudMapCellWithID ℚ Unit := ⟨"a", (), ⟨-2, 0, 0, 2⟩⟩

def upperLoader : VoxelGridDynamicMapLoader ℚ Unit := emptyLoader.applyMapCells [upperCell] []

end

/-!
## Closeness to the map

The voxels around a point, one leaf size apart, contain every centroid that is close to it.
The probes of a cell therefore find the close centroids of that cell, and a query finds those
of the cell that holds the point.
-/

def IsClose (centroid point : Point K) (distanceThreshold : K) : Prop :=
  (centroid.x - point.x) * (centroid.x - point.x) +
      (centroid.y - point.y) * (centroid.y - point.y) +
      (centroid.z - point.z) * (centroid.z - point.z) <
    distanceThreshold * distanceThreshold

instance (centroid point : Point K) (distanceThreshold : K) :
    Decidable (IsClose centroid point distanceThreshold) :=
  inferInstanceAs (Decidable (_ < _))

structure Voxelized (leafSize : K) (voxel : VoxelGrid K) (cloud : List (Point K)) : Prop where
  inverse : voxel.inverseLeafSize = leafSize⁻¹
  valid : ∀ leaf, voxel.centroidIndexAt leaf ≠ -1 →
    0 ≤ voxel.centroidIndexAt leaf ∧ voxel.centroidIndexAt leaf < cloud.length
  indexed : ∀ (i : ℕ) (centroid : Point K), cloud[i]? = some centroid →
    voxel.centroidIndexAt (getGridCoordinates voxel centroid) = i

/-! ## Probes -/

/-- Checks that do not fail find what one of them finds. -/
theorem anyM_eq_ok {α : Type} {check : α → Except Failure Bool} {items : List α}
    (hcheck : ∀ item ∈ items, ∃ found, check item = .ok found) :
    ∃ found, anyM check items = .ok found ∧
      (found = true ↔ ∃ item ∈ items, check item = .ok true) := by
  induction items with
  | nil => exact ⟨false, rfl, by simp⟩
  | cons first rest ih =>
    obtain ⟨⟨here, hhere⟩, hrest⟩ := List.forall_mem_cons.mp hcheck
    obtain ⟨later, hlater, hiff⟩ := ih hrest
    rw [anyM, hhere]
    cases here with
    | true => exact ⟨true, rfl, iff_of_true rfl ⟨first, List.mem_cons_self, hhere⟩⟩
    | false =>
      refine ⟨later, hlater, hiff.trans ?_⟩
      simp [hhere]

section

variable {leafSize : K} {voxel : VoxelGrid K} {cloud : List (Point K)}

/-- A probe compares the point with the centroid of one leaf. -/
theorem isInVoxel_eq_ok (hvoxels : Voxelized leafSize voxel cloud) (srcPoint targetPoint : Point K)
    (distanceThreshold : K) :
    ∃ found, isInVoxel srcPoint targetPoint distanceThreshold cloud voxel = .ok found ∧
      (found = true ↔ ∃ (i : ℕ) (centroid : Point K),
        voxel.centroidIndexAt (getGridCoordinates voxel srcPoint) = i ∧
        cloud[i]? = some centroid ∧ IsClose centroid targetPoint distanceThreshold) := by
  rw [isInVoxel]
  split
  case isTrue hempty =>
      refine ⟨false, rfl, ?_⟩
      constructor
      · intro hfalse
        cases hfalse
      · rintro ⟨i, centroid, hindex, _⟩
        omega
  case isFalse hleaf =>
      obtain ⟨hnonneg, hlt⟩ := hvoxels.valid _ hleaf
      have hindex : (voxel.centroidIndexAt (getGridCoordinates voxel srcPoint)).toNat <
          cloud.length := by omega
      rw [if_neg (not_lt.mpr hnonneg), List.getElem?_eq_getElem hindex]
      refine ⟨_, rfl, ?_⟩
      rw [decide_eq_true_iff]
      constructor
      · intro hclose
        exact ⟨_, _, (Int.toNat_of_nonneg hnonneg).symm, List.getElem?_eq_getElem hindex, hclose⟩
      · rintro ⟨i, centroid, hi, hcentroid, hclose⟩
        have hsame : (voxel.centroidIndexAt (getGridCoordinates voxel srcPoint)).toNat = i := by
          omega
        subst hsame
        rw [List.getElem?_eq_getElem hindex] at hcentroid
        cases hcentroid
        exact hclose

variable [IsStrictOrderedRing K]

/-- The leaf of a close coordinate is the own one or next to it. -/
theorem exists_floor_eq {a b : K} (hleaf : 0 < leafSize) (hclose : |b - a| < leafSize) :
    ∃ offset : ℤ, (offset = -1 ∨ offset = 0 ∨ offset = 1) ∧
      ⌊(a + offset * leafSize) * leafSize⁻¹⌋ = ⌊b * leafSize⁻¹⌋ := by
  have hbelow : b * leafSize⁻¹ - a * leafSize⁻¹ ≤ 1 := by
    rw [← sub_mul, ← div_eq_mul_inv, div_le_one hleaf]
    exact (le_abs_self _).trans hclose.le
  have habove : a * leafSize⁻¹ - b * leafSize⁻¹ ≤ 1 := by
    rw [← sub_mul, ← div_eq_mul_inv, div_le_one hleaf]
    exact (le_abs_self _).trans ((abs_sub_comm a b).trans_lt hclose).le
  have hup := Library.CellGrid.floor_sub_floor_le hbelow
  have hdown := Library.CellGrid.floor_sub_floor_le habove
  rw [Int.ceil_one] at hup hdown
  refine ⟨⌊b * leafSize⁻¹⌋ - ⌊a * leafSize⁻¹⌋, by omega, ?_⟩
  rw [add_mul, mul_inv_cancel_right₀ hleaf.ne', Int.floor_add_intCast]
  omega

omit [FloorRing K] in
/-- A point that is close is close in each coordinate. -/
theorem abs_lt_of_sq_lt {a b c d : K} (hd : 0 < d) (hsum : a * a + b * b + c * c < d * d) :
    |a| < d := by
  apply abs_lt_of_sq_lt_sq _ hd.le
  nlinarith [mul_self_nonneg b, mul_self_nonneg c]

theorem mem_neighborOffsets {i j k : ℤ} (hi : i = -1 ∨ i = 0 ∨ i = 1)
    (hj : j = -1 ∨ j = 0 ∨ j = 1) (hk : k = -1 ∨ k = 0 ∨ k = 1) :
    (i, j, k) ∈ neighborOffsets := by
  rcases hi with rfl | rfl | rfl <;> rcases hj with rfl | rfl | rfl <;>
    rcases hk with rfl | rfl | rfl <;> decide

theorem isCloseToNeighborVoxels_eq_ok (hleaf : 0 < leafSize)
    (hvoxels : Voxelized leafSize voxel cloud) (point : Point K) :
    ∃ found, isCloseToNeighborVoxels point leafSize (some cloud) voxel = .ok found ∧
      (found = true ↔ ∃ centroid ∈ cloud, IsClose centroid point leafSize) := by
  have hprobe := fun offset : ℤ × ℤ × ℤ =>
    isInVoxel_eq_ok hvoxels (shift point leafSize offset) point leafSize
  have hprobes : ∀ offset ∈ neighborOffsets, ∃ found,
      isInVoxel (shift point leafSize offset) point leafSize cloud voxel = .ok found :=
    fun offset _ => (hprobe offset).imp fun _ => And.left
  obtain ⟨found, hfound, hiff⟩ := anyM_eq_ok hprobes
  refine ⟨found, hfound, hiff.trans ?_⟩
  constructor
  · rintro ⟨offset, _, htrue⟩
    obtain ⟨here, hhere, hcentroid⟩ := hprobe offset
    rw [htrue] at hhere
    cases hhere
    obtain ⟨i, centroid, _, hmem, hclose⟩ := hcentroid.mp rfl
    exact ⟨centroid, List.mem_of_getElem? hmem, hclose⟩
  · rintro ⟨centroid, hmem, hclose⟩
    obtain ⟨i, hi⟩ := List.mem_iff_getElem?.mp hmem
    have hcloseX := abs_lt_of_sq_lt hleaf hclose
    have hcloseY : |centroid.y - point.y| < leafSize := by
      apply abs_lt_of_sq_lt (b := centroid.x - point.x) (c := centroid.z - point.z) hleaf
      rw [IsClose] at hclose
      linarith
    have hcloseZ : |centroid.z - point.z| < leafSize := by
      apply abs_lt_of_sq_lt (b := centroid.x - point.x) (c := centroid.y - point.y) hleaf
      rw [IsClose] at hclose
      linarith
    obtain ⟨dx, hdx, hx⟩ := exists_floor_eq hleaf hcloseX
    obtain ⟨dy, hdy, hy⟩ := exists_floor_eq hleaf hcloseY
    obtain ⟨dz, hdz, hz⟩ := exists_floor_eq hleaf hcloseZ
    have hgrid : getGridCoordinates voxel (shift point leafSize (dx, dy, dz)) =
        getGridCoordinates voxel centroid := by
      rw [getGridCoordinates, getGridCoordinates, hvoxels.inverse]
      exact Prod.ext hx (Prod.ext hy hz)
    obtain ⟨here, hhere, hcentroid⟩ := hprobe (dx, dy, dz)
    have htrue := hcentroid.mpr
      ⟨i, centroid, (congrArg _ hgrid).trans (hvoxels.indexed i centroid hi), hi, hclose⟩
    rw [htrue] at hhere
    exact ⟨_, mem_neighborOffsets hdx hdy hdz, hhere⟩

end

/-! ## Queries -/

section

variable {loader : VoxelGridDynamicMapLoader K Cloud} {position : Point K}

def FiltersVoxels (filter : K → Cloud → VoxelGrid K × List (Point K)) : Prop :=
  ∀ leafSize cloud, 0 < leafSize →
    Voxelized leafSize (filter leafSize cloud).1 (filter leafSize cloud).2

def HasVoxels (loader : VoxelGridDynamicMapLoader K Cloud) (leafSize : K) : Prop :=
  loader.AllCells fun info =>
    ∃ cloud, info.mapCellPcPtr = some cloud ∧ Voxelized leafSize info.mapCellVoxelGrid cloud

theorem HasVoxels.applyMapCells (hvoxels : loader.HasVoxels loader.voxelLeafSize)
    (hfilter : FiltersVoxels loader.filter) (hleaf : 0 < loader.voxelLeafSize)
    (cells : List (PointCloudMapCellWithID K Cloud)) (ids : List String) :
    (loader.applyMapCells cells ids).HasVoxels loader.voxelLeafSize :=
  AllCells.applyMapCells hvoxels (fun cell => ⟨_, rfl, hfilter _ cell.pointcloud hleaf⟩) cells ids

theorem HasVoxels.hasClouds {leafSize : K} (hvoxels : loader.HasVoxels leafSize) :
    loader.HasClouds := by
  intro kv hmem
  obtain ⟨cloud, hcloud, _⟩ := hvoxels kv hmem
  rw [hcloud]
  exact Option.some_ne_none cloud

def HasCloseCentroid (info : MapGridVoxelInfo K) (point : Point K) (distanceThreshold : K) :
    Prop :=
  ∃ centroid ∈ info.mapCellPcPtr.getD [], IsClose centroid point distanceThreshold

instance (info : MapGridVoxelInfo K) (point : Point K) (distanceThreshold : K) :
    Decidable (HasCloseCentroid info point distanceThreshold) :=
  inferInstanceAs (Decidable (∃ centroid ∈ info.mapCellPcPtr.getD [], _))

/-- No two loaded cells have their minimum corners in one cell of the grid. -/
def Separate (loader : VoxelGridDynamicMapLoader K Cloud) (position : Point K) : Prop :=
  ∀ kv ∈ loader.currentVoxelGridDict.toList, ∀ other ∈ loader.currentVoxelGridDict.toList,
    loader.windowColumn position kv.2.minBX = loader.windowColumn position other.2.minBX →
    loader.windowRow position kv.2.minBY = loader.windowRow position other.2.minBY →
    kv = other

theorem eq_of_windowNumber_eq {x y x' y' : K} (hwindow : loader.InWindow position x y)
    (hwindow' : loader.InWindow position x' y')
    (hnumber : loader.windowNumber position x y = loader.windowNumber position x' y') :
    loader.windowColumn position x = loader.windowColumn position x' ∧
      loader.windowRow position y = loader.windowRow position y' := by
  obtain ⟨⟨hnonneg, hlt⟩, _⟩ := hwindow
  obtain ⟨⟨hnonneg', hlt'⟩, _⟩ := hwindow'
  have hcolumn : loader.windowColumn position x = loader.windowColumn position x' := by
    have hmod := congrArg (· % loader.windowColumns position) hnumber
    simpa only [windowNumber, Int.add_mul_emod_self_left, Int.emod_eq_of_lt hnonneg hlt,
      Int.emod_eq_of_lt hnonneg' hlt'] using hmod
  refine ⟨hcolumn, ?_⟩
  rw [windowNumber, windowNumber, hcolumn, add_right_inj] at hnumber
  exact mul_left_cancel₀ (hnonneg.trans_lt hlt).ne' hnumber

variable [IsStrictOrderedRing K] {array : List (Option (MapGridVoxelInfo K))}

theorem consultedCell_eq_of_entered (hx : 0 < loader.mapGridSizeX) (hy : 0 < loader.mapGridSizeY)
    (hentered : (loader.setWindow position).Entered loader.currentVoxelGridDict.toList
      (loader.setWindow position).assignedArray array)
    (hwindow : ∀ kv ∈ loader.currentVoxelGridDict.toList,
      loader.InWindow position kv.2.minBX kv.2.minBY)
    (hseparate : loader.Separate position) (hclouds : loader.HasClouds)
    (point : Point K) (info : MapGridVoxelInfo K) :
    (loader.withArray position array).consultedCell point = some info ↔
      ∃ kv ∈ loader.currentVoxelGridDict.toList, kv.2 = info ∧
        loader.windowNumber position kv.2.minBX kv.2.minBY =
          loader.windowNumber position point.x point.y := by
  have hkept : ∀ kv ∈ loader.currentVoxelGridDict.toList, ¬loader.Skipped position kv.2 :=
    fun kv hmem => not_le.mpr (windowNumber_lt (hwindow kv hmem))
  constructor
  · intro hconsulted
    obtain ⟨kv, hmem, hsame, _, hnumber⟩ := exists_of_consultedCell hx hy hentered hconsulted
    exact ⟨kv, hmem, hsame, hnumber⟩
  · rintro ⟨kv, hmem, rfl, hnumber⟩
    obtain ⟨last, hlast, hsame, hconsulted⟩ :=
      exists_consultedCell hx hy hentered hclouds hmem (hkept kv hmem)
    obtain ⟨hcolumn, hrow⟩ := eq_of_windowNumber_eq (hwindow last hlast) (hwindow kv hmem) hsame
    rw [hconsulted point hnumber.symm, hseparate last hlast kv hmem hcolumn hrow]

omit [IsStrictOrderedRing K] in
/-- The slots of the array are never null. -/
theorem none_notMem_of_entered
    (hentered : (loader.setWindow position).Entered loader.currentVoxelGridDict.toList
      (loader.setWindow position).assignedArray array) : none ∉ array := by
  intro hmem
  obtain ⟨i, hi⟩ := List.mem_iff_getElem?.mp hmem
  rcases hentered.source i none hi with hempty | ⟨kv, _, hnone, _⟩
  · have hmem := List.mem_of_getElem? hempty
    rw [assignedArray] at hmem
    cases List.eq_of_mem_replicate hmem
  · cases hnone

theorem isCloseToMap_eq_ok (hx : 0 < loader.mapGridSizeX) (hy : 0 < loader.mapGridSizeY)
    (hentered : (loader.setWindow position).Entered loader.currentVoxelGridDict.toList
      (loader.setWindow position).assignedArray array)
    (hwindow : ∀ kv ∈ loader.currentVoxelGridDict.toList,
      loader.InWindow position kv.2.minBX kv.2.minBY)
    (hseparate : loader.Separate position) {distanceThreshold : K}
    (hthreshold : 0 < distanceThreshold) (hvoxels : loader.HasVoxels distanceThreshold)
    (point : Point K) :
    ∃ found, (loader.withArray position array).isCloseToMap point distanceThreshold = .ok found ∧
      (found = true ↔ ∃ kv ∈ loader.currentVoxelGridDict.toList,
        loader.windowNumber position kv.2.minBX kv.2.minBY =
          loader.windowNumber position point.x point.y ∧
        HasCloseCentroid kv.2 point distanceThreshold) := by
  have hconsulted := consultedCell_eq_of_entered hx hy hentered hwindow hseparate
    hvoxels.hasClouds point
  cases hempty : (loader.withArray position array).currentVoxelGridDict.isEmpty with
  | true =>
    refine ⟨false, ?_, iff_of_false Bool.false_ne_true ?_⟩
    · rw [isCloseToMap, hempty]
      rfl
    · rintro ⟨kv, hmem, _⟩
      have hnil := List.isEmpty_iff.mp (Std.TreeMap.isEmpty_toList.trans hempty)
      rw [show loader.currentVoxelGridDict.toList = [] from hnil] at hmem
      cases hmem
  | false =>
    have hnull : none ∉ (loader.withArray position array).currentVoxelGridArray :=
      none_notMem_of_entered hentered
    rw [isCloseToMap_eq hnull hempty]
    cases hcell : (loader.withArray position array).consultedCell point with
    | none =>
      refine ⟨false, rfl, iff_of_false Bool.false_ne_true ?_⟩
      rintro ⟨kv, hmem, hnumber, _⟩
      cases hcell.symm.trans ((hconsulted kv.2).mpr ⟨kv, hmem, rfl, hnumber⟩)
    | some info =>
      obtain ⟨kv, hmem, rfl, hnumber⟩ := (hconsulted info).mp hcell
      obtain ⟨cloud, hcloud, hvoxelized⟩ := hvoxels kv hmem
      obtain ⟨found, hfound, hiff⟩ := isCloseToNeighborVoxels_eq_ok hthreshold hvoxelized point
      rw [← hcloud] at hfound
      refine ⟨found, hfound, hiff.trans ?_⟩
      constructor
      · rintro ⟨centroid, hcentroid, hclose⟩
        refine ⟨kv, hmem, hnumber, centroid, ?_, hclose⟩
        rwa [hcloud]
      · rintro ⟨other, hother, hsame, centroid, hcentroid, hclose⟩
        have hinfo := hcell.symm.trans ((hconsulted other.2).mpr ⟨other, hother, rfl, hsame⟩)
        rw [← Option.some.inj hinfo, hcloud] at hcentroid
        exact ⟨centroid, hcentroid, hclose⟩

end

def filterPoint (leafSize : ℚ) (cloud : Point ℚ) : VoxelGrid ℚ × List (Point ℚ) :=
  let leaf := (⌊cloud.x * leafSize⁻¹⌋, ⌊cloud.y * leafSize⁻¹⌋, ⌊cloud.z * leafSize⁻¹⌋)
  (⟨leafSize⁻¹, fun other => if other = leaf then 0 else -1⟩, [cloud])

theorem filtersVoxels_filterPoint : FiltersVoxels filterPoint := by
  intro leafSize cloud _
  refine ⟨rfl, ?_, ?_⟩
  · intro leaf hleaf
    rw [filterPoint] at hleaf ⊢
    dsimp only at hleaf ⊢
    split at hleaf
    · next hsame =>
        rw [if_pos hsame]
        exact ⟨le_refl 0, Int.zero_lt_one⟩
    · exact absurd rfl hleaf
  · intro i centroid hi
    cases i with
    | zero =>
      cases hi
      exact if_pos rfl
    | succ i => cases hi

def borderLoader : VoxelGridDynamicMapLoader ℚ (Point ℚ) :=
  { filter := filterPoint, voxelLeafSize := 1, mapLoaderRadius := 10
    currentPosition := some ⟨5, 5, 0⟩, currentVoxelGridDict := ∅
    mapGridSizeX := -1, mapGridSizeY := -1, currentVoxelGridArray := []
    mapGridsX := 0, mapGridsY := 0, originX := 0, originY := 0
    mutexLocked := false : VoxelGridDynamicMapLoader ℚ (Point ℚ) }.applyMapCells
    [⟨"a", ⟨39 / 4, 5, 0⟩, ⟨0, 0, 10, 10⟩⟩, ⟨"b", ⟨15, 5, 0⟩, ⟨10, 0, 20, 10⟩⟩] []

theorem borderLoader_hasVoxels : borderLoader.HasVoxels 1 := by
  apply HasVoxels.applyMapCells _ filtersVoxels_filterPoint zero_lt_one
  intro kv hmem
  cases hmem

theorem borderLoader_separate : borderLoader.Separate ⟨5, 5, 0⟩ := by
  have hids : ∀ kv ∈ borderLoader.currentVoxelGridDict.toList,
      ∀ other ∈ borderLoader.currentVoxelGridDict.toList,
      borderLoader.windowColumn ⟨5, 5, 0⟩ kv.2.minBX =
        borderLoader.windowColumn ⟨5, 5, 0⟩ other.2.minBX → kv.1 = other.1 := by
    decide +kernel
  intro kv hmem other hother hcolumn _
  have hid := hids kv hmem other hother hcolumn
  have hkv := Std.TreeMap.mem_toList_iff_getElem?_eq_some.mp hmem
  have hsame := Std.TreeMap.mem_toList_iff_getElem?_eq_some.mp hother
  rw [hid, hsame] at hkv
  exact Prod.ext hid (Option.some.inj hkv).symm

end VoxelGridDynamicMapLoader

end AutowareUniverse.Perception.VoxelGridMapLoader
