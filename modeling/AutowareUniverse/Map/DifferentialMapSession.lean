import AutowareUniverse.Perception.VoxelGridMapLoader

/-!
# Sessions of the differential map loader

After every response the client holds the cells within the queried area and no others,
whatever it held before.
-/

namespace AutowareUniverse.Map.DifferentialMapLoader

open Perception.VoxelGridMapLoader

variable {K Cloud : Type} [Field K] [LinearOrder K]

/-! ## The response -/

namespace DifferentialMapLoaderModule

variable (loader : DifferentialMapLoaderModule K Cloud) (area : AreaInfo K)
  (cachedIds : List String)

theorem foldl_loadCell_shouldRemove (eles : List (String × PCDFileMetadata K))
    (loading : Loading K Cloud) (i : ℕ) :
    (eles.foldl (loader.loadCell area cachedIds) loading).shouldRemove[i]? = some true ↔
      loading.shouldRemove[i]? = some true ∧ ∀ ele ∈ eles,
        isGridWithinQueriedArea loader.hypot area ele.2 →
          cachedIds.findIdx? (· = ele.1) ≠ some i := by
  induction eles generalizing loading with
  | nil => simp
  | cons ele eles ih =>
    rw [List.foldl_cons, ih, loadCell, List.forall_mem_cons]
    split
    · next houtside =>
        have hskip : isGridWithinQueriedArea loader.hypot area ele.2 →
            cachedIds.findIdx? (· = ele.1) ≠ some i := fun hwithin => absurd hwithin houtside
        exact and_congr_right fun _ => (and_iff_right hskip).symm
    · next hwithin =>
        rw [not_not] at hwithin
        cases hfind : cachedIds.findIdx? (· = ele.1) with
        | none => simp [hwithin]
        | some index =>
          simp only [hwithin, true_implies, List.getElem?_set]
          by_cases hindex : index = i
          · subst hindex
            simp only [if_pos, ne_eq, not_true, false_and, and_false, iff_false, not_and]
            intro hset
            split at hset <;> simp at hset
          · simp [hindex]

theorem foldl_loadCell_new (eles : List (String × PCDFileMetadata K)) (loading : Loading K Cloud) :
    (eles.foldl (loader.loadCell area cachedIds) loading).newPointcloudWithIds.map (·.cellId) =
      loading.newPointcloudWithIds.map (·.cellId) ++
        (eles.filter fun ele =>
          isGridWithinQueriedArea loader.hypot area ele.2 && ele.1 ∉ cachedIds).map Prod.fst := by
  induction eles generalizing loading with
  | nil => simp
  | cons ele eles ih =>
    rw [List.foldl_cons, ih, loadCell]
    split
    · next houtside => simp [houtside]
    · next hwithin =>
        rw [not_not] at hwithin
        cases hfind : cachedIds.findIdx? (· = ele.1) with
        | none =>
          have hnew : ele.1 ∉ cachedIds := by
            intro hheld
            have hne := List.findIdx?_eq_none_iff.mp hfind ele.1 hheld
            simp at hne
          simp [hwithin, hnew, loadPointCloudMapCellWithID]
        | some index =>
          have hheld : ele.1 ∈ cachedIds := by
            obtain ⟨hlt, hat, _⟩ := List.findIdx?_eq_some_iff_getElem.mp hfind
            exact (of_decide_eq_true hat) ▸ List.getElem_mem hlt
          simp [hwithin, hheld]

theorem mem_newIds (cellId : String) :
    cellId ∈ (loader.differentialAreaLoad area cachedIds).newPointcloudWithIds.map (·.cellId) ↔
      cellId ∉ cachedIds ∧ ∃ metadata, loader.allPcdFileMetadataDict[cellId]? = some metadata ∧
        isGridWithinQueriedArea loader.hypot area metadata := by
  rw [differentialAreaLoad, foldl_loadCell_new]
  simp only [List.map_nil, List.nil_append, List.mem_map, List.mem_filter, Bool.and_eq_true,
    decide_eq_true_eq]
  constructor
  · rintro ⟨⟨other, metadata⟩, ⟨hmem, hwithin, hnew⟩, rfl⟩
    exact ⟨hnew, metadata, Std.TreeMap.mem_toList_iff_getElem?_eq_some.mp hmem, hwithin⟩
  · rintro ⟨hnew, metadata, hmem, hwithin⟩
    exact ⟨(cellId, metadata), ⟨Std.TreeMap.mem_toList_iff_getElem?_eq_some.mpr hmem, hwithin, hnew⟩,
      rfl⟩

theorem findIdx?_eq_some_of_nodup {cachedIds : List String} (hnodup : cachedIds.Nodup)
    {cellId : String} {i : ℕ} : cachedIds.findIdx? (· = cellId) = some i ↔ cachedIds[i]? = some cellId := by
  rw [List.findIdx?_eq_some_iff_getElem]
  constructor
  · rintro ⟨hlt, hat, _⟩
    rw [List.getElem?_eq_getElem hlt, of_decide_eq_true hat]
  · intro hat
    obtain ⟨hlt, hat⟩ := List.getElem?_eq_some_iff.mp hat
    refine ⟨hlt, decide_eq_true hat, fun j hj hsame => ?_⟩
    have heq : cachedIds[j] = cachedIds[i] := (of_decide_eq_true hsame).trans hat.symm
    exact absurd ((List.Nodup.getElem_inj_iff hnodup).mp heq) (Nat.ne_of_lt hj)

theorem mem_idsToRemove (hnodup : cachedIds.Nodup) (cellId : String) :
    cellId ∈ (loader.differentialAreaLoad area cachedIds).idsToRemove ↔
      cellId ∈ cachedIds ∧ ¬∃ metadata, loader.allPcdFileMetadataDict[cellId]? = some metadata ∧
        isGridWithinQueriedArea loader.hypot area metadata := by
  rw [differentialAreaLoad, List.mem_filterMap, List.mem_iff_getElem?]
  constructor
  · rintro ⟨⟨cached, remove⟩, hmem, hsome⟩
    obtain ⟨i, hi⟩ := List.mem_iff_getElem?.mp hmem
    obtain ⟨hcached, hremove⟩ := List.getElem?_zip_eq_some.mp hi
    cases remove with
    | false => cases hsome
    | true =>
      cases hsome
      refine ⟨⟨i, hcached⟩, ?_⟩
      rintro ⟨metadata, hmem, hwithin⟩
      rw [foldl_loadCell_shouldRemove] at hremove
      apply hremove.2 (cached, metadata)
        (Std.TreeMap.mem_toList_iff_getElem?_eq_some.mpr hmem) hwithin
      exact (findIdx?_eq_some_of_nodup hnodup).mpr hcached
  · rintro ⟨⟨i, hcached⟩, houtside⟩
    refine ⟨(cellId, true), List.mem_iff_getElem?.mpr ⟨i, ?_⟩, rfl⟩
    rw [List.getElem?_zip_eq_some, foldl_loadCell_shouldRemove]
    refine ⟨hcached, ?_⟩
    refine ⟨by simp [(List.getElem?_eq_some_iff.mp hcached).1], ?_⟩
    rintro ⟨other, metadata⟩ hmem hwithin hfind
    have hsame : other = cellId := by
      rw [findIdx?_eq_some_of_nodup hnodup, hcached] at hfind
      exact (Option.some.inj hfind).symm
    subst hsame
    exact houtside ⟨metadata, Std.TreeMap.mem_toList_iff_getElem?_eq_some.mp hmem, hwithin⟩

end DifferentialMapLoaderModule

section

variable {K : Type} {client : VoxelGridDynamicMapLoader K Cloud} {cellId : String}

theorem nodup_getCurrentMapIDs (client : VoxelGridDynamicMapLoader K Cloud) :
    client.getCurrentMapIDs.Nodup :=
  Std.TreeMap.nodup_keys

theorem mem_getCurrentMapIDs :
    cellId ∈ client.getCurrentMapIDs ↔ cellId ∈ client.currentVoxelGridDict :=
  Std.TreeMap.mem_keys

theorem mem_foldl_removeMapCell (ids : List String) :
    cellId ∈ (ids.foldl VoxelGridDynamicMapLoader.removeMapCell client).currentVoxelGridDict ↔
      cellId ∈ client.currentVoxelGridDict ∧ cellId ∉ ids := by
  induction ids generalizing client with
  | nil => simp
  | cons removed ids ih =>
    rw [List.foldl_cons, ih, VoxelGridDynamicMapLoader.removeMapCell]
    rw [Std.TreeMap.mem_erase, ne_eq, Std.LawfulEqCmp.compare_eq_iff_eq, List.mem_cons, eq_comm]
    tauto

variable [Field K]

theorem mem_foldl_addMapCellAndFilter (cells : List (PointCloudMapCellWithID K Cloud)) :
    cellId ∈ (cells.foldl VoxelGridDynamicMapLoader.addMapCellAndFilter client).currentVoxelGridDict ↔
      cellId ∈ client.currentVoxelGridDict ∨ cellId ∈ cells.map (·.cellId) := by
  induction cells generalizing client with
  | nil => simp
  | cons cell cells ih =>
    rw [List.foldl_cons, ih, VoxelGridDynamicMapLoader.addMapCellAndFilter]
    rw [Std.TreeMap.mem_insertIfNew, Std.LawfulEqCmp.compare_eq_iff_eq, List.map_cons,
      List.mem_cons, eq_comm]
    tauto

variable [LinearOrder K] [FloorRing K]

theorem updateVoxelGridArray_dict (client : VoxelGridDynamicMapLoader K Cloud) :
    client.updateVoxelGridArray.1.currentVoxelGridDict = client.currentVoxelGridDict := by
  rw [VoxelGridDynamicMapLoader.updateVoxelGridArray]
  split
  · rfl
  · dsimp only
    split
    · rfl
    · split
      · rfl
      · split <;> rfl

theorem receiveResponse_dict (client : VoxelGridDynamicMapLoader K Cloud)
    (result : Response K Cloud) :
    (client.receiveResponse result).1.currentVoxelGridDict =
      (client.applyMapCells result.newPointcloudWithIds result.idsToRemove).currentVoxelGridDict := by
  rw [VoxelGridDynamicMapLoader.receiveResponse]
  split
  · next hempty =>
      rw [List.isEmpty_iff.mp hempty.1, List.isEmpty_iff.mp hempty.2]
      rfl
  · exact updateVoxelGridArray_dict _

end

/-! ## The other services -/

namespace DifferentialMapLoaderModule

variable (loader : DifferentialMapLoaderModule K Cloud) (area : AreaInfo K)

def loadWithin (ele : String × PCDFileMetadata K) : Option (PointCloudMapCellWithID K Cloud) :=
  if ¬isGridWithinQueriedArea loader.hypot area ele.2 then none
  else some (loader.loadPointCloudMapCellWithID ele.1 ele.1 ele.2)

/-- `PartialMapLoaderModule`, which has the same map cells. -/
def partialAreaLoad : List (PointCloudMapCellWithID K Cloud) :=
  loader.allPcdFileMetadataDict.toList.filterMap (loader.loadWithin area)

/-- `SelectedMapLoaderModule`, which has the same map cells. -/
def onServiceGetSelectedPointCloudMap (requestIds : List String) :
    List (PointCloudMapCellWithID K Cloud) :=
  requestIds.filterMap fun requestId =>
    (loader.allPcdFileMetadataDict[requestId]?).map
      (loader.loadPointCloudMapCellWithID requestId requestId)

theorem foldl_loadCell_cells (cachedIds : List String) (eles : List (String × PCDFileMetadata K))
    (loading : Loading K Cloud) :
    (eles.foldl (loader.loadCell area cachedIds) loading).newPointcloudWithIds =
      loading.newPointcloudWithIds ++
        (eles.filterMap (loader.loadWithin area)).filter (·.cellId ∉ cachedIds) := by
  induction eles generalizing loading with
  | nil => simp
  | cons ele eles ih =>
    rw [List.foldl_cons, ih, loadCell]
    split
    · next houtside => simp [loadWithin, houtside]
    · next hwithin =>
        rw [not_not] at hwithin
        cases hfind : cachedIds.findIdx? (· = ele.1) with
        | none =>
          have hnew : ele.1 ∉ cachedIds := fun hheld => by
            simpa using List.findIdx?_eq_none_iff.mp hfind ele.1 hheld
          simp [loadWithin, hwithin, hnew, loadPointCloudMapCellWithID]
        | some index =>
          obtain ⟨hlt, hat, _⟩ := List.findIdx?_eq_some_iff_getElem.mp hfind
          have hheld : ele.1 ∈ cachedIds := (of_decide_eq_true hat) ▸ List.getElem_mem hlt
          simp [loadWithin, hwithin, hheld, loadPointCloudMapCellWithID]

/-- The partial loader answers like the differential one to a client without cells. -/
theorem partialAreaLoad_eq : loader.partialAreaLoad area =
    (loader.differentialAreaLoad area []).newPointcloudWithIds := by
  simp [differentialAreaLoad, foldl_loadCell_cells, partialAreaLoad]

/-- A response is the difference between the client's cells and the partial loader's, which the
selected loader finds by their ids. -/
theorem services_agree (client : VoxelGridDynamicMapLoader K Cloud) :
    let cells := loader.partialAreaLoad area
    let response := loader.differentialAreaLoad area client.getCurrentMapIDs
    response.newPointcloudWithIds = cells.filter (·.cellId ∉ client.getCurrentMapIDs) ∧
      (∀ cellId, cellId ∈ response.idsToRemove ↔
        cellId ∈ client.getCurrentMapIDs ∧ cellId ∉ cells.map (·.cellId)) ∧
      loader.onServiceGetSelectedPointCloudMap (cells.map (·.cellId)) = cells := by
  refine ⟨foldl_loadCell_cells .., fun cellId => ?_, ?_⟩
  · rw [loader.mem_idsToRemove area _ (nodup_getCurrentMapIDs client), partialAreaLoad_eq, mem_newIds,
      and_iff_right List.not_mem_nil]
  · rw [onServiceGetSelectedPointCloudMap, partialAreaLoad, List.map_filterMap,
      List.filterMap_filterMap]
    refine List.filterMap_congr fun ele hele => ?_
    unfold loadWithin
    have hmem := Std.TreeMap.mem_toList_iff_getElem?_eq_some.mp hele
    split
    · rfl
    · exact (congrArg (Option.map _) hmem).trans rfl

end DifferentialMapLoaderModule

/-! ## Requests -/

variable [FloorRing K]

def requestArea (loader : DifferentialMapLoaderModule K Cloud)
    (client : VoxelGridDynamicMapLoader K Cloud) (area : AreaInfo K) :
    VoxelGridDynamicMapLoader K Cloud :=
  (client.receiveResponse (loader.differentialAreaLoad area client.getCurrentMapIDs)).1

/-- After any requests, the response to the next one leaves exactly the cells within its
area, removes no cell that it adds, and adds no cell that the client holds. -/
theorem holds_queried_area (loader : DifferentialMapLoaderModule K Cloud)
    (client : VoxelGridDynamicMapLoader K Cloud) (areas : List (AreaInfo K)) (area : AreaInfo K) :
    let held := areas.foldl (requestArea loader) client
    let response := loader.differentialAreaLoad area held.getCurrentMapIDs
    (∀ cellId, cellId ∈ (requestArea loader held area).getCurrentMapIDs ↔
        ∃ metadata, loader.allPcdFileMetadataDict[cellId]? = some metadata ∧
          isGridWithinQueriedArea loader.hypot area metadata) ∧
      (∀ cell ∈ response.newPointcloudWithIds, cell.cellId ∉ response.idsToRemove) ∧
      ∀ cell ∈ response.newPointcloudWithIds, cell.cellId ∉ held.getCurrentMapIDs := by
  intro held response
  have hnew := loader.mem_newIds area held.getCurrentMapIDs
  have hremove :=
    loader.mem_idsToRemove area held.getCurrentMapIDs (nodup_getCurrentMapIDs held)
  refine ⟨fun cellId => ?_, fun cell hcell hremoved => ?_, fun cell hcell => ?_⟩
  · rw [mem_getCurrentMapIDs, requestArea, receiveResponse_dict,
      VoxelGridDynamicMapLoader.applyMapCells, mem_foldl_removeMapCell,
      mem_foldl_addMapCellAndFilter, hnew, hremove, mem_getCurrentMapIDs]
    by_cases hheld : cellId ∈ held.currentVoxelGridDict
    · simp [hheld]
    · simp [hheld]
  · have hadded := (hnew cell.cellId).mp (List.mem_map_of_mem hcell)
    exact hadded.1 ((hremove cell.cellId).mp hremoved).1
  · exact ((hnew cell.cellId).mp (List.mem_map_of_mem hcell)).1

end AutowareUniverse.Map.DifferentialMapLoader
