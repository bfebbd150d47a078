import AutowareUniverse.Library.CellGrid
import AutowareUniverse.Library.Fallible
import Mathlib.Data.Rat.Floor
import Mathlib.Data.Int.ModEq
import Mathlib.Tactic.Positivity

/-!
# The spatial hash

Points are stored by the bin of a regular grid into which they fall, and the points
near a query are found in the bins around it.  Coordinates are taken from an ordered
field, so that their arithmetic is exact, while the indices have a fixed width.  The
elements of the hash are told apart by the iterators that point to them; the order in
which it holds them is not specified.
-/

namespace AutowareUniverse.Common

open Library.CellGrid

namespace SpatialHash

/-- The exceptions of the source.  The last three are undefined behaviour: a number is
cast that is no index, an iterator is used that points to no element, and a loop does
not end. -/
inductive Failure where
  | domainError
  | lengthError
  | notRepresentable
  | invalidIterator
  | diverges
  deriving DecidableEq

/-! ## Indices -/

/-- An `Index` is less than this number. -/
def indexSize : ℕ := 2 ^ 64

/-- `std::numeric_limits<Index>::max()`. -/
def indexMax : ℕ := indexSize - 1

/-- The arithmetic of indices. -/
def wrap (number : ℕ) : ℕ := number % indexSize

structure Index3 where
  x : ℕ
  y : ℕ
  z : ℕ
  deriving DecidableEq

structure BinRange where
  first : Index3
  second : Index3
  deriving DecidableEq

/-- The specialisations of the hash. -/
inductive Dimension where
  | config2d
  | config3d
  deriving DecidableEq

end SpatialHash

open SpatialHash in
structure SpatialHash.Config (K : Type) where
  dimension : Dimension
  minX : K
  minY : K
  minZ : K
  maxX : K
  maxY : K
  maxZ : K
  sideLength : K
  sideLength2 : K
  sideLengthInv : K
  capacity : ℕ
  maxXIdx : ℕ
  maxYIdx : ℕ
  maxZIdx : ℕ
  yStride : ℕ
  zStride : ℕ
  deriving DecidableEq

namespace SpatialHash

/-- The point adapters. -/
class PointAdapter (PointT : Type) (K : outParam Type) where
  x_ : PointT → K
  y_ : PointT → K
  z_ : PointT → K

variable {PointT K : Type}

section

variable [Field K] [LinearOrder K] [FloorRing K]

/-- `static_cast<Index>`, which drops the fraction. -/
def castIndex (number : K) : Except Failure ℕ :=
  if -1 < number ∧ number < indexSize then return ⌊number⌋.toNat else throw .notRepresentable

/-- `std::numeric_limits<float32_t>`. -/
def floatMax : K := (2 ^ 24 - 1) * 2 ^ 104

def floatMin : K := 1 / 2 ^ 126

def floatEpsilon : K := 1 / 2 ^ 23

def checkBasisDirection (sideLengthInv lower upper : K) : Except Failure ℕ :=
  if upper ≤ lower then throw .domainError
  else
    let width := (upper - lower) * sideLengthInv
    if floatMax ≤ width then throw .domainError else castIndex width

namespace Config

/-- The constructor of the base class.  Where the side length is zero, the source throws
the same exception because of the infinite width. -/
def construct (dimension : Dimension) (minX maxX minY maxY minZ maxZ radius : K)
    (capacity : ℕ) : Except Failure (Config K) := do
  let sideLengthInv := 1 / radius
  let maxXIdx ← checkBasisDirection sideLengthInv minX maxX
  let maxYIdx ← checkBasisDirection sideLengthInv minY maxY
  let maxZIdx ← checkBasisDirection sideLengthInv minZ maxZ
  let yStride := wrap (maxXIdx + 1)
  let zStride := wrap (yStride * wrap (maxYIdx + 1))
  if radius ≤ 0 then throw .domainError
  else if indexMax / 2 < wrap (maxYIdx + yStride) then throw .domainError
  else if indexMax / 2 < wrap (zStride + maxZIdx) then throw .domainError
  else if indexMax = maxZIdx then throw .domainError
  else return {
    dimension := dimension
    minX := minX, minY := minY, minZ := minZ
    maxX := maxX - floatEpsilon, maxY := maxY - floatEpsilon, maxZ := maxZ - floatEpsilon
    sideLength := radius, sideLength2 := radius * radius, sideLengthInv := sideLengthInv
    capacity := capacity
    maxXIdx := maxXIdx, maxYIdx := maxYIdx, maxZIdx := maxZIdx
    yStride := yStride, zStride := zStride }

def config2d (minX maxX minY maxY radius : K) (capacity : ℕ) : Except Failure (Config K) :=
  construct .config2d minX maxX minY maxY 0 floatMin radius capacity

def config3d (minX maxX minY maxY minZ maxZ radius : K) (capacity : ℕ) :
    Except Failure (Config K) :=
  construct .config3d minX maxX minY maxY minZ maxZ radius capacity

/-! ## Bins -/

def axisIndex (lower upper sideLengthInv coordinate : K) : Except Failure ℕ :=
  castIndex (⌊(clamp lower upper coordinate - lower) * sideLengthInv⌋ : K)

variable (config : Config K)

def xIndex (x : K) : Except Failure ℕ :=
  axisIndex config.minX config.maxX config.sideLengthInv x

def yIndex (y : K) : Except Failure ℕ :=
  axisIndex config.minY config.maxY config.sideLengthInv y

def zIndex (z : K) : Except Failure ℕ :=
  axisIndex config.minZ config.maxZ config.sideLengthInv z

def index3 (x y z : K) : Except Failure Index3 := do
  let xdx ← config.xIndex x
  let ydx ← config.yIndex y
  match config.dimension with
  | .config2d => return ⟨xdx, ydx, 0⟩
  | .config3d => return ⟨xdx, ydx, ← config.zIndex z⟩

/-- `bin_impl(xdx, ydx)`. -/
def binImpl2 (xdx ydx : ℕ) : ℕ := wrap (xdx + wrap (ydx * config.yStride))

/-- `bin_impl(xdx, ydx, zdx)`. -/
def binImpl3 (xdx ydx zdx : ℕ) : ℕ :=
  wrap (config.binImpl2 xdx ydx + wrap (zdx * config.zStride))

def index (idx : Index3) : ℕ :=
  match config.dimension with
  | .config2d => config.binImpl2 idx.x idx.y
  | .config3d => config.binImpl3 idx.x idx.y idx.z

def bin (x y z : K) : Except Failure ℕ := do
  let xdx ← config.xIndex x
  let ydx ← config.yIndex y
  match config.dimension with
  | .config2d => return config.binImpl2 xdx ydx
  | .config3d => return wrap (config.binImpl2 xdx ydx + wrap ((← config.zIndex z) * config.zStride))

def binRange (ref : Index3) (radius : K) : Except Failure BinRange := do
  let iRadius ← castIndex (⌈radius / config.sideLength⌉ : K)
  let lower (axis : ℕ) : ℕ := if iRadius < axis then axis - iRadius else 0
  return {
    first := ⟨lower ref.x, lower ref.y, lower ref.z⟩
    second := ⟨min (wrap (ref.x + iRadius)) config.maxXIdx,
      min (wrap (ref.y + iRadius)) config.maxYIdx, min (wrap (ref.z + iRadius)) config.maxZIdx⟩ }

def idxDistance (refIdx queryIdx : ℕ) : K :=
  let iDist := if queryIdx ≤ refIdx then refIdx - queryIdx else queryIdx - refIdx
  max ((iDist : K) - 1) 0

def isCandidateBin (ref query : Index3) (refDistance2 : K) : Bool :=
  let dx : K := idxDistance ref.x query.x
  let dy : K := idxDistance ref.y query.y
  match config.dimension with
  | .config2d => decide ((dx * dx + dy * dy) * config.sideLength2 ≤ refDistance2)
  | .config3d =>
    let dz : K := idxDistance ref.z query.z
    decide ((dx * dx + dy * dy + dz * dz) * config.sideLength2 ≤ refDistance2)

variable [PointAdapter PointT K]

open PointAdapter in
def distanceSquared (x y z : K) (pt : PointT) : K :=
  let dx := x - x_ pt
  let dy := y - y_ pt
  match config.dimension with
  | .config2d => dx * dx + dy * dy
  | .config3d =>
    let dz := z - z_ pt
    dx * dx + dy * dy + dz * dz

end Config

def nextBin (range : BinRange) (idx : Index3) : Bool × Index3 :=
  let x := wrap (idx.x + 1)
  if range.second.x < x then
    let y := wrap (idx.y + 1)
    if range.second.y < y then
      let z := wrap (idx.z + 1)
      (!decide (range.second.z < z), ⟨range.first.x, range.first.y, z⟩)
    else (true, ⟨range.first.x, y, idx.z⟩)
  else (true, ⟨x, idx.y, idx.z⟩)

end

/-! ## The hash -/

/-- An element of `m_hash`, with the iterator that points to it. -/
structure Entry (PointT : Type) where
  iterator : ℕ
  bin : ℕ
  point : PointT

structure Output (PointT K : Type) where
  entry : Entry PointT
  distance : K

end SpatialHash

open SpatialHash in
/-- Iterators from `created` on point to no element yet. -/
structure SpatialHash (PointT K : Type) where
  config : Config K
  hash : List (Entry PointT)
  created : ℕ
  binsHit : ℕ
  neighborsFound : ℕ

namespace SpatialHash

variable {PointT K : Type}

/-- The constructor. -/
def create (config : Config K) : SpatialHash PointT K :=
  ⟨config, [], 0, 0, 0⟩

variable (self : SpatialHash PointT K)

def size : ℕ := self.hash.length

def capacity : ℕ := self.config.capacity

def clear : SpatialHash PointT K := { self with hash := [] }

def erase (point : ℕ) : SpatialHash PointT K × Except Failure Unit :=
  match self.hash.find? fun entry => entry.iterator = point with
  | none => (self, throw .invalidIterator)
  | some found =>
    if self.hash.any fun entry => entry.bin = found.bin then
      ({ self with hash := self.hash.filter fun entry => entry.iterator ≠ point }, return ())
    else (self, throw .domainError)

variable [Field K] [LinearOrder K] [FloorRing K] [PointAdapter PointT K]

open PointAdapter in
def insertImpl (pt : PointT) : SpatialHash PointT K × Except Failure Unit :=
  match self.config.bin (x_ pt) (y_ pt) (z_ pt) with
  | .error failure => (self, throw failure)
  | .ok idx =>
    ({ self with hash := self.hash ++ [⟨self.created, idx, pt⟩], created := self.created + 1 },
      return ())

def insert (pt : PointT) : SpatialHash PointT K × Except Failure Unit :=
  if self.capacity ≤ self.size then (self, throw .lengthError) else self.insertImpl pt

def insertLoop (self : SpatialHash PointT K) :
    List PointT → SpatialHash PointT K × Except Failure Unit
  | [] => (self, return ())
  | pt :: rest =>
    match self.insertImpl pt with
    | (inserted, .error failure) => (inserted, throw failure)
    | (inserted, .ok ()) => inserted.insertLoop rest

def insertRange (pts : List PointT) : SpatialHash PointT K × Except Failure Unit :=
  if self.capacity < self.size + pts.length then (self, throw .lengthError)
  else self.insertLoop pts

variable (sqrtf : K → K)

def neighborsIn (x y z radius2 : K) (jdx : ℕ) : List (Output PointT K) :=
  (self.hash.filter fun entry => entry.bin = jdx).filterMap fun entry =>
    let dist2 := self.config.distanceSquared x y z entry.point
    if dist2 ≤ radius2 then some ⟨entry, sqrtf dist2⟩ else none

/-- The body of the loop over the bins. -/
def visitBin (x y z radius2 : K) (ref : Index3)
    (state : List (Output PointT K) × ℕ) (idx : Index3) : List (Output PointT K) × ℕ :=
  let (neighbors, binsHit) := state
  if self.config.isCandidateBin ref idx radius2 then
    (neighbors ++ self.neighborsIn sqrtf x y z radius2 (self.config.index idx), wrap (binsHit + 1))
  else (neighbors, wrap (binsHit + 1))

/-- `do ... while (next_bin(...))`. -/
def binLoop {σ : Type} (visit : σ → Index3 → σ) (range : BinRange) :
    ℕ → σ → Index3 → Except Failure σ
  | 0, _, _ => throw .diverges
  | iterations + 1, state, idx =>
    match nextBin range idx with
    | (true, next) => binLoop visit range iterations (visit state idx) next
    | (false, _) => return visit state idx

def nearImpl (iterations : ℕ) (x y z radius : K) :
    Except Failure (SpatialHash PointT K × List (Output PointT K)) := do
  let refIdx ← self.config.index3 x y z
  let radius2 := radius * radius
  let idxRange ← self.config.binRange refIdx radius
  let (neighbors, binsHit) ← binLoop (self.visitBin sqrtf x y z radius2 refIdx) idxRange
    iterations ([], self.binsHit) idxRange.first
  return ({ self with
    binsHit := binsHit
    neighborsFound := wrap (self.neighborsFound + neighbors.length) }, neighbors)

/-- The query takes two coordinates in two dimensions. -/
def near (iterations : ℕ) (x y z radius : K) :
    Except Failure (SpatialHash PointT K × List (Output PointT K)) :=
  match self.config.dimension with
  | .config2d => self.nearImpl sqrtf iterations x y 0 radius
  | .config3d => self.nearImpl sqrtf iterations x y z radius

end SpatialHash

end AutowareUniverse.Common

namespace AutowareUniverse.Common.SpatialHash

open Library.CellGrid Library.Fallible

section

variable {K : Type} [Field K] [LinearOrder K] [FloorRing K]

theorem castIndex_eq_ok {number : K} {idx : ℕ} : castIndex number = .ok idx ↔
      (-1 < number ∧ number < indexSize) ∧ idx = ⌊number⌋.toNat := by
  unfold castIndex
  by_cases hrange : -1 < number ∧ number < indexSize
  · rw [if_pos hrange]
    constructor
    · intro hok
      exact ⟨hrange, (Except.ok.inj hok).symm⟩
    · rintro ⟨_, rfl⟩
      rfl
  · rw [if_neg hrange]
    constructor
    · intro hok
      cases hok
    · rintro ⟨hrange', _⟩
      exact (hrange hrange').elim

theorem wrap_of_lt {number : ℕ} (hlt : number < indexSize) : wrap number = number :=
  Nat.mod_eq_of_lt hlt

theorem wrap_modEq (number : ℕ) : wrap number ≡ number [MOD indexSize] :=
  Nat.mod_modEq number indexSize

theorem wrap_lt (number : ℕ) : wrap number < indexSize :=
  Nat.mod_lt number (by decide)

section

variable [IsStrictOrderedRing K] {lower upper side sideInv : K} {maxIdx : ℕ}

/-- A basis direction whose interval is not empty after the end was moved. -/
structure IsAxis (lower upper side sideInv : K) (maxIdx : ℕ) : Prop where
  side_pos : 0 < side
  sideInv_eq : sideInv = 1 / side
  interval : lower ≤ upper
  maxIdx_lt : maxIdx < indexSize
  maxIdx_eq : (maxIdx : ℤ) = ⌊(upper + floatEpsilon - lower) * sideInv⌋

/-- The index of a coordinate. -/
structure AxisCell (lower upper sideInv : K) (maxIdx : ℕ) (a : K) (idx : ℕ) : Prop where
  index : Config.axisIndex lower upper sideInv a = .ok idx
  le : idx ≤ maxIdx
  floor : (idx : ℤ) = ⌊(clamp lower upper a - lower) * sideInv⌋

namespace IsAxis

theorem sideInv_pos (haxis : IsAxis lower upper side sideInv maxIdx) : 0 < sideInv := by
  rw [haxis.sideInv_eq]
  exact one_div_pos.mpr haxis.side_pos

/-- Every coordinate has an index, which is at most the greatest one. -/
theorem exists_cell (haxis : IsAxis lower upper side sideInv maxIdx) (a : K) :
    ∃ idx, AxisCell lower upper sideInv maxIdx a idx := by
  have hpos := haxis.sideInv_pos.le
  have hnonneg : 0 ≤ ⌊(clamp lower upper a - lower) * sideInv⌋ := by
    rw [Int.floor_nonneg]
    exact mul_nonneg (sub_nonneg.mpr (le_clamp haxis.interval a)) hpos
  have hepsilon : (0 : K) ≤ floatEpsilon := by
    unfold floatEpsilon
    positivity
  have hle : ⌊(clamp lower upper a - lower) * sideInv⌋ ≤ maxIdx := by
    rw [haxis.maxIdx_eq]
    refine Int.floor_le_floor (mul_le_mul_of_nonneg_right ?_ hpos)
    exact sub_le_sub_right ((clamp_le lower upper a).trans (le_add_of_nonneg_right hepsilon)) _
  obtain ⟨idx, hidx⟩ := Int.eq_ofNat_of_zero_le hnonneg
  refine ⟨idx, ?_, by omega, hidx.symm⟩
  have hlt : idx < indexSize := by
    have := haxis.maxIdx_lt
    omega
  unfold Config.axisIndex
  rw [castIndex_eq_ok, hidx]
  refine ⟨⟨?_, ?_⟩, ?_⟩
  · push_cast
    linarith [(Nat.cast_nonneg idx : (0 : K) ≤ idx)]
  · exact_mod_cast hlt
  · simp

variable {a b : K} {i j : ℕ} (haxis : IsAxis lower upper side sideInv maxIdx)

include haxis

theorem scaled_le (a b : K) :
    |(clamp lower upper a - lower) * sideInv - (clamp lower upper b - lower) * sideInv| ≤
      |a - b| / side := by
  have hpos := haxis.sideInv_pos
  rw [← sub_mul, abs_mul, abs_of_pos hpos, sub_sub_sub_cancel_right, haxis.sideInv_eq, mul_one_div]
  exact div_le_div_of_nonneg_right (abs_clamp_sub_clamp_le lower upper a b) haxis.side_pos.le

/-- The indices of close coordinates are close. -/
theorem index_le
    (hi : AxisCell lower upper sideInv maxIdx a i)
    (hj : AxisCell lower upper sideInv maxIdx b j) {radius : K}
    (hclose : |a - b| ≤ radius) : (i : ℤ) ≤ j + ⌈radius / side⌉ := by
  have hscaled : (clamp lower upper a - lower) * sideInv -
      (clamp lower upper b - lower) * sideInv ≤ radius / side :=
    (le_abs_self _).trans ((haxis.scaled_le a b).trans
      (div_le_div_of_nonneg_right hclose haxis.side_pos.le))
  have hfloor := floor_sub_floor_le hscaled
  rw [← hi.floor, ← hj.floor] at hfloor
  omega

/-- Coordinates are at least as far apart as their indices say. -/
theorem idxDistance_le
    (hi : AxisCell lower upper sideInv maxIdx a i) (hj : AxisCell lower upper sideInv maxIdx b j) :
    Config.idxDistance i j ≤ |a - b| / side := by
  have hscaled := haxis.scaled_le a b
  unfold Config.idxDistance
  refine max_le ?_ (div_nonneg (abs_nonneg _) haxis.side_pos.le)
  by_cases hle : j ≤ i
  · have hgap := floor_sub_floor_sub_one_le ((clamp lower upper a - lower) * sideInv)
      ((clamp lower upper b - lower) * sideInv)
    rw [← hi.floor, ← hj.floor] at hgap
    push_cast at hgap
    simp only [hle, if_true]
    rw [Nat.cast_sub hle]
    exact hgap.trans ((le_abs_self _).trans hscaled)
  · have hgap := floor_sub_floor_sub_one_le ((clamp lower upper b - lower) * sideInv)
      ((clamp lower upper a - lower) * sideInv)
    rw [← hi.floor, ← hj.floor] at hgap
    push_cast at hgap
    simp only [hle, if_false]
    rw [Nat.cast_sub (Nat.le_of_not_le hle)]
    rw [abs_sub_comm] at hscaled
    exact hgap.trans ((le_abs_self _).trans hscaled)

theorem sq_idxDistance_le
    (hi : AxisCell lower upper sideInv maxIdx a i) (hj : AxisCell lower upper sideInv maxIdx b j) :
    (Config.idxDistance i j * Config.idxDistance i j : K) * (side * side) ≤
      (a - b) * (a - b) := by
  have hle := haxis.idxDistance_le hi hj
  rw [le_div_iff₀ haxis.side_pos] at hle
  have hnonneg : (0 : K) ≤ Config.idxDistance i j * side :=
    mul_nonneg (le_max_right _ _) haxis.side_pos.le
  calc (Config.idxDistance i j * Config.idxDistance i j : K) * (side * side)
      = (Config.idxDistance i j * side) * (Config.idxDistance i j * side) := by ring
    _ ≤ |a - b| * |a - b| := mul_self_le_mul_self hnonneg hle
    _ = (a - b) * (a - b) := abs_mul_abs_self _

end IsAxis

end

/-! ## Configurations -/

namespace Config

variable {config : Config K}

def Accepted (config : Config K) : Prop :=
  (∃ (minX maxX minY maxY radius : K) (capacity : ℕ),
    config2d minX maxX minY maxY radius capacity = .ok config) ∨
  ∃ (minX maxX minY maxY minZ maxZ radius : K) (capacity : ℕ),
    config3d minX maxX minY maxY minZ maxZ radius capacity = .ok config

/-- The greatest index of a direction is its width in bins. -/
structure HasWidth (lower upper sideInv : K) (maxIdx : ℕ) : Prop where
  nonempty : lower < upper + floatEpsilon
  maxIdx_lt : maxIdx < indexSize
  maxIdx_eq : maxIdx = ⌊(upper + floatEpsilon - lower) * sideInv⌋.toNat

theorem hasWidth_of_check {sideInv lower upper : K} {maxIdx : ℕ}
    (hcheck : checkBasisDirection sideInv lower upper = .ok maxIdx) :
    HasWidth lower (upper - floatEpsilon) sideInv maxIdx := by
  unfold checkBasisDirection at hcheck
  by_cases hempty : upper ≤ lower
  · rw [if_pos hempty] at hcheck
    cases hcheck
  rw [if_neg hempty] at hcheck
  by_cases hwidth : floatMax ≤ (upper - lower) * sideInv
  · simp only [hwidth, if_true] at hcheck
    cases hcheck
  simp only [hwidth, if_false] at hcheck
  obtain ⟨⟨_, hlt⟩, hidx⟩ := castIndex_eq_ok.mp hcheck
  refine ⟨?_, ?_, ?_⟩
  · rw [sub_add_cancel]
    exact not_le.mp hempty
  · rw [hidx]
    have hfloor : ⌊(upper - lower) * sideInv⌋ < indexSize := by
      rw [Int.floor_lt]
      exact_mod_cast hlt
    have hpos : 0 < indexSize := by decide
    omega
  · rw [sub_add_cancel]
    exact hidx

/-- What the constructor of the base class establishes. -/
structure Built (config : Config K) : Prop where
  side_pos : 0 < config.sideLength
  side2 : config.sideLength2 = config.sideLength * config.sideLength
  sideInv_eq : config.sideLengthInv = 1 / config.sideLength
  x : HasWidth config.minX config.maxX config.sideLengthInv config.maxXIdx
  y : HasWidth config.minY config.maxY config.sideLengthInv config.maxYIdx
  z : HasWidth config.minZ config.maxZ config.sideLengthInv config.maxZIdx
  yStride : config.yStride = wrap (config.maxXIdx + 1)
  zStride : config.zStride = wrap (config.yStride * wrap (config.maxYIdx + 1))
  maxZIdx_ne : indexMax ≠ config.maxZIdx

theorem built_of_construct {dimension : Dimension} {minX maxX minY maxY minZ maxZ radius : K}
    {capacity : ℕ}
    (hok : construct dimension minX maxX minY maxY minZ maxZ radius capacity = .ok config) :
    Built config ∧ config.dimension = dimension ∧ config.minZ = minZ ∧
      config.maxZ = maxZ - floatEpsilon := by
  unfold construct at hok
  obtain ⟨maxXIdx, hx, hok⟩ := bind_eq_ok.mp hok
  obtain ⟨maxYIdx, hy, hok⟩ := bind_eq_ok.mp hok
  obtain ⟨maxZIdx, hz, hok⟩ := bind_eq_ok.mp hok
  by_cases hradius : radius ≤ 0
  · rw [if_pos hradius] at hok
    cases hok
  rw [if_neg hradius] at hok
  by_cases hyIdx : indexMax / 2 < wrap (maxYIdx + wrap (maxXIdx + 1))
  · rw [if_pos hyIdx] at hok
    cases hok
  rw [if_neg hyIdx] at hok
  by_cases hzStride : indexMax / 2 < wrap (wrap (wrap (maxXIdx + 1) * wrap (maxYIdx + 1)) + maxZIdx)
  · rw [if_pos hzStride] at hok
    cases hok
  rw [if_neg hzStride] at hok
  by_cases hzIdx : indexMax = maxZIdx
  · rw [if_pos hzIdx] at hok
    cases hok
  rw [if_neg hzIdx] at hok
  cases hok
  exact ⟨⟨not_le.mp hradius, rfl, rfl, hasWidth_of_check hx, hasWidth_of_check hy,
    hasWidth_of_check hz, rfl, rfl, hzIdx⟩, rfl, rfl, rfl⟩

/-- The intervals of the used directions are not empty after their ends were moved, and
the number of bins is the number of an index. -/
structure Fits (config : Config K) : Prop where
  x : config.minX ≤ config.maxX
  y : config.minY ≤ config.maxY
  z : config.dimension = .config3d → config.minZ ≤ config.maxZ
  xBins : config.maxXIdx + 1 < indexSize
  yBins : config.maxYIdx + 1 < indexSize
  bins : (config.maxXIdx + 1) * (config.maxYIdx + 1) * (config.maxZIdx + 1) ≤ indexSize

structure Grid (config : Config K) : Prop where
  x : IsAxis config.minX config.maxX config.sideLength config.sideLengthInv config.maxXIdx
  y : IsAxis config.minY config.maxY config.sideLength config.sideLengthInv config.maxYIdx
  z : config.dimension = .config3d →
    IsAxis config.minZ config.maxZ config.sideLength config.sideLengthInv config.maxZIdx
  flat : config.dimension = .config2d → config.maxZIdx = 0
  side2 : config.sideLength2 = config.sideLength * config.sideLength
  yStride : config.yStride = wrap (config.maxXIdx + 1)
  zStride : config.zStride = wrap (config.yStride * wrap (config.maxYIdx + 1))
  xBins : config.maxXIdx + 1 < indexSize
  yBins : config.maxYIdx + 1 < indexSize
  zBins : config.maxZIdx + 1 < indexSize
  bins : (config.maxXIdx + 1) * (config.maxYIdx + 1) * (config.maxZIdx + 1) ≤ indexSize

structure InGrid (config : Config K) (idx : Index3) : Prop where
  x : idx.x ≤ config.maxXIdx
  y : idx.y ≤ config.maxYIdx
  z : idx.z ≤ config.maxZIdx

namespace Grid

variable (hgrid : Grid config)

include hgrid

theorem index_eq {idx : Index3} (hidx : InGrid config idx) :
    config.index idx = idx.x + idx.y * (config.maxXIdx + 1) +
      idx.z * ((config.maxXIdx + 1) * (config.maxYIdx + 1)) := by
  have hlt := (mixedRadix_lt (Nat.lt_succ_of_le hidx.x) (Nat.lt_succ_of_le hidx.y)
    (Nat.lt_succ_of_le hidx.z)).trans_le hgrid.bins
  have hyStride : config.yStride = config.maxXIdx + 1 := by
    rw [hgrid.yStride, wrap_of_lt hgrid.xBins]
  have hzStride : config.zStride ≡
      (config.maxXIdx + 1) * (config.maxYIdx + 1) [MOD indexSize] := by
    rw [hgrid.zStride, hyStride, wrap_of_lt hgrid.yBins]
    exact wrap_modEq _
  have hrow : config.binImpl2 idx.x idx.y ≡
      idx.x + idx.y * (config.maxXIdx + 1) [MOD indexSize] := by
    unfold binImpl2
    rw [hyStride]
    exact (wrap_modEq _).trans ((Nat.ModEq.refl _).add (wrap_modEq _))
  unfold index
  cases hdimension : config.dimension with
  | config2d =>
    have hz : idx.z = 0 := by
      have hle := hidx.z
      rw [hgrid.flat hdimension] at hle
      exact Nat.le_zero.mp hle
    rw [hz, zero_mul, add_zero] at hlt ⊢
    exact hrow.eq_of_lt_of_lt (wrap_lt _) hlt
  | config3d =>
    have hall : config.binImpl3 idx.x idx.y idx.z ≡ idx.x + idx.y * (config.maxXIdx + 1) +
        idx.z * ((config.maxXIdx + 1) * (config.maxYIdx + 1)) [MOD indexSize] := by
      refine (wrap_modEq _).trans (hrow.add ((wrap_modEq _).trans ?_))
      exact (Nat.ModEq.refl _).mul hzStride
    exact hall.eq_of_lt_of_lt (wrap_lt _) hlt

theorem index_inj {idx other : Index3} (hidx : InGrid config idx) (hother : InGrid config other)
    (hsame : config.index idx = config.index other) : idx = other := by
  rw [hgrid.index_eq hidx, hgrid.index_eq hother] at hsame
  obtain ⟨hx, hy, hz⟩ := mixedRadix_inj (Nat.lt_succ_of_le hidx.x) (Nat.lt_succ_of_le hother.x)
    (Nat.lt_succ_of_le hidx.y) (Nat.lt_succ_of_le hother.y) hsame
  cases idx
  cases other
  simp only at hx hy hz
  rw [hx, hy, hz]

end Grid

/-- The bin of a position. -/
structure IsCell (config : Config K) (x y z : K) (idx : Index3) : Prop where
  x : AxisCell config.minX config.maxX config.sideLengthInv config.maxXIdx x idx.x
  y : AxisCell config.minY config.maxY config.sideLengthInv config.maxYIdx y idx.y
  z : config.dimension = .config3d →
    AxisCell config.minZ config.maxZ config.sideLengthInv config.maxZIdx z idx.z
  flat : config.dimension = .config2d → idx.z = 0

namespace IsCell

variable {x y z : K} {idx : Index3}

theorem inGrid (hcell : IsCell config x y z idx) : InGrid config idx := by
  refine ⟨hcell.x.le, hcell.y.le, ?_⟩
  cases hdimension : config.dimension with
  | config2d =>
    rw [hcell.flat hdimension]
    exact Nat.zero_le _
  | config3d => exact (hcell.z hdimension).le

theorem index3_eq (hcell : IsCell config x y z idx) : config.index3 x y z = .ok idx := by
  have hx : config.xIndex x = .ok idx.x := hcell.x.index
  have hy : config.yIndex y = .ok idx.y := hcell.y.index
  unfold index3
  rw [hx, hy]
  cases hdimension : config.dimension with
  | config2d =>
    have hz := hcell.flat hdimension
    cases idx
    simp only at hz
    rw [hz]
    rfl
  | config3d =>
    have hz : config.zIndex z = .ok idx.z := (hcell.z hdimension).index
    rw [hz]
    rfl

theorem bin_eq (hcell : IsCell config x y z idx) :
    config.bin x y z = .ok (config.index idx) := by
  have hx : config.xIndex x = .ok idx.x := hcell.x.index
  have hy : config.yIndex y = .ok idx.y := hcell.y.index
  unfold bin index
  rw [hx, hy]
  cases hdimension : config.dimension with
  | config2d => rfl
  | config3d =>
    have hz : config.zIndex z = .ok idx.z := (hcell.z hdimension).index
    rw [hz]
    rfl

end IsCell

variable [IsStrictOrderedRing K]

theorem HasWidth.isAxis {lower upper side sideInv : K} {maxIdx : ℕ}
    (hwidth : HasWidth lower upper sideInv maxIdx) (hside : 0 < side)
    (hinv : sideInv = 1 / side) (hinterval : lower ≤ upper) :
    IsAxis lower upper side sideInv maxIdx := by
  refine ⟨hside, hinv, hinterval, hwidth.maxIdx_lt, ?_⟩
  have hnonneg : 0 ≤ ⌊(upper + floatEpsilon - lower) * sideInv⌋ := by
    rw [Int.floor_nonneg, hinv]
    exact mul_nonneg (sub_nonneg.mpr hwidth.nonempty.le) (one_div_pos.mpr hside).le
  rw [hwidth.maxIdx_eq, Int.toNat_of_nonneg hnonneg]

/-- A grid in two dimensions has one layer: a side length with two layers would make the
number of columns overflow. -/
theorem maxZIdx_eq_zero (hbuilt : Built config) (hfits : Fits config)
    (hlower : config.minZ = 0) (hupper : config.maxZ = floatMin - floatEpsilon) :
    config.maxZIdx = 0 := by
  by_contra hlayers
  have hz := hbuilt.z.maxIdx_eq
  rw [hlower, hupper, sub_add_cancel, sub_zero] at hz
  have hone : (1 : K) ≤ floatMin * config.sideLengthInv := by
    have hfloor : (1 : ℤ) ≤ ⌊(floatMin : K) * config.sideLengthInv⌋ := by omega
    simpa using Int.le_floor.mp hfloor
  have haxis := hbuilt.x.isAxis hbuilt.side_pos hbuilt.sideInv_eq hfits.x
  have hwide : (2 ^ 103 : K) ≤
      (config.maxX + floatEpsilon - config.minX) * config.sideLengthInv := by
    calc (2 ^ 103 : K) ≤ 2 ^ 103 * (floatMin * config.sideLengthInv) :=
          le_mul_of_one_le_right (by positivity) hone
      _ = floatEpsilon * config.sideLengthInv := by
          unfold floatMin floatEpsilon
          ring
      _ ≤ (config.maxX + floatEpsilon - config.minX) * config.sideLengthInv := by
          refine mul_le_mul_of_nonneg_right ?_ haxis.sideInv_pos.le
          linarith [hfits.x]
  have hcolumns : (2 ^ 103 : ℤ) ≤ config.maxXIdx := by
    rw [haxis.maxIdx_eq]
    exact Int.le_floor.mpr (by exact_mod_cast hwide)
  have hlt := haxis.maxIdx_lt
  unfold indexSize at hlt
  omega

theorem Grid.of_accepted (haccepted : Accepted config) (hfits : Fits config) : Grid config := by
  have hbuilt : Built config ∧ (config.dimension = .config2d → config.maxZIdx = 0) := by
    rcases haccepted with ⟨minX, maxX, minY, maxY, radius, capacity, hok⟩ |
      ⟨minX, maxX, minY, maxY, minZ, maxZ, radius, capacity, hok⟩
    · obtain ⟨hbuilt, _, hlower, hupper⟩ := built_of_construct hok
      exact ⟨hbuilt, fun _ => maxZIdx_eq_zero hbuilt hfits hlower hupper⟩
    · obtain ⟨hbuilt, hdimension, _, _⟩ := built_of_construct hok
      refine ⟨hbuilt, fun hflat => ?_⟩
      rw [hdimension] at hflat
      cases hflat
  obtain ⟨hbuilt, hflat⟩ := hbuilt
  have hzBins : config.maxZIdx + 1 < indexSize := by
    have hlt := hbuilt.z.maxIdx_lt
    have hne := hbuilt.maxZIdx_ne
    unfold indexMax at hne
    omega
  exact ⟨hbuilt.x.isAxis hbuilt.side_pos hbuilt.sideInv_eq hfits.x,
    hbuilt.y.isAxis hbuilt.side_pos hbuilt.sideInv_eq hfits.y,
    fun hsolid => hbuilt.z.isAxis hbuilt.side_pos hbuilt.sideInv_eq (hfits.z hsolid),
    hflat, hbuilt.side2, hbuilt.yStride, hbuilt.zStride, hfits.xBins, hfits.yBins, hzBins,
    hfits.bins⟩

theorem Grid.exists_cell (hgrid : Grid config) (x y z : K) : ∃ idx, IsCell config x y z idx := by
  obtain ⟨xdx, hx⟩ := hgrid.x.exists_cell x
  obtain ⟨ydx, hy⟩ := hgrid.y.exists_cell y
  cases hdimension : config.dimension with
  | config2d =>
    refine ⟨⟨xdx, ydx, 0⟩, hx, hy, fun hsolid => ?_, fun _ => rfl⟩
    rw [hdimension] at hsolid
    cases hsolid
  | config3d =>
    obtain ⟨zdx, hz⟩ := (hgrid.z hdimension).exists_cell z
    refine ⟨⟨xdx, ydx, zdx⟩, hx, hy, fun _ => hz, fun hflat => ?_⟩
    rw [hdimension] at hflat
    cases hflat

end Config

end

/-!
## Near neighbors of the spatial hash

The walk visits every bin of its range once.  Since the bin of a near point is in the
range and a candidate, and no other bin has its index, each near point is found once.
-/

/-! ## The walk over the bins -/

section

variable (range : BinRange)

def advance (idx : Index3) : Option Index3 :=
  match nextBin range idx with
  | (true, next) => some next
  | (false, _) => none

/-- A range that is not empty, and whose bounds can be exceeded by an index. -/
structure Walkable (range : BinRange) : Prop where
  x : range.first.x ≤ range.second.x
  y : range.first.y ≤ range.second.y
  z : range.first.z ≤ range.second.z
  xBound : range.second.x + 1 < indexSize
  yBound : range.second.y + 1 < indexSize
  zBound : range.second.z + 1 < indexSize

structure InBox (range : BinRange) (idx : Index3) : Prop where
  x : range.first.x ≤ idx.x ∧ idx.x ≤ range.second.x
  y : range.first.y ≤ idx.y ∧ idx.y ≤ range.second.y
  z : range.first.z ≤ idx.z ∧ idx.z ≤ range.second.z

def rowBins (y z : ℕ) : List Index3 :=
  (List.range' range.first.x (range.second.x - range.first.x + 1)).flatMap fun x => [⟨x, y, z⟩]

def layerBins (z : ℕ) : List Index3 :=
  (List.range' range.first.y (range.second.y - range.first.y + 1)).flatMap fun y =>
    rowBins range y z

def rangeBins : List Index3 :=
  (List.range' range.first.z (range.second.z - range.first.z + 1)).flatMap fun z =>
    layerBins range z

variable {range : BinRange}

namespace Walkable

theorem mem_rangeBins (hwalk : Walkable range) {idx : Index3} :
    idx ∈ rangeBins range ↔ InBox range idx := by
  have hx := hwalk.x
  have hy := hwalk.y
  have hz := hwalk.z
  simp only [rangeBins, layerBins, rowBins, List.mem_flatMap, List.mem_range'_1, List.mem_singleton]
  constructor
  · rintro ⟨z, hz', y, hy', x, hx', rfl⟩
    refine ⟨⟨hx'.1, ?_⟩, ⟨hy'.1, ?_⟩, ⟨hz'.1, ?_⟩⟩
    · change x ≤ range.second.x
      omega
    · change y ≤ range.second.y
      omega
    · change z ≤ range.second.z
      omega
  · rintro ⟨hx, hy, hz⟩
    exact ⟨idx.z, ⟨hz.1, by omega⟩, idx.y, ⟨hy.1, by omega⟩, idx.x, ⟨hx.1, by omega⟩, rfl⟩

theorem nodup_rangeBins (range : BinRange) : (rangeBins range).Nodup := by
  have hy : ∀ {y z : ℕ}, ∀ idx ∈ rowBins range y z, idx.y = y ∧ idx.z = z := by
    intro y z idx hidx
    obtain ⟨x, _, hmem⟩ := List.mem_flatMap.mp hidx
    rw [List.mem_singleton.mp hmem]
    exact ⟨rfl, rfl⟩
  have hz : ∀ {z : ℕ}, ∀ idx ∈ layerBins range z, idx.z = z := by
    intro z idx hidx
    obtain ⟨y, _, hmem⟩ := List.mem_flatMap.mp hidx
    exact (hy idx hmem).2
  apply nodup_flatMap List.nodup_range'
  · intro z _
    apply nodup_flatMap List.nodup_range'
    · intro y _
      apply nodup_flatMap List.nodup_range'
      · exact fun x _ => List.nodup_singleton _
      · intro x _ x' _ idx hidx hidx'
        rw [List.mem_singleton.mp hidx] at hidx'
        exact congrArg Index3.x (List.mem_singleton.mp hidx')
    · intro y _ y' _ idx hidx hidx'
      exact (hy idx hidx).1.symm.trans (hy idx hidx').1
  · intro z _ z' _ idx hidx hidx'
    exact (hz idx hidx).symm.trans (hz idx hidx')

variable (hwalk : Walkable range)

include hwalk

theorem advance_x {x y z : ℕ} (hlt : x < range.second.x) :
    advance range ⟨x, y, z⟩ = some ⟨x + 1, y, z⟩ := by
  have hbound := hwalk.xBound
  have hwrap : wrap (x + 1) = x + 1 := wrap_of_lt (by omega)
  have hinside : ¬range.second.x < x + 1 := by omega
  simp only [advance, nextBin, hwrap, hinside, if_false]

theorem advance_y {y z : ℕ} (hlt : y < range.second.y) :
    advance range ⟨range.second.x, y, z⟩ = some ⟨range.first.x, y + 1, z⟩ := by
  have hbound := hwalk.yBound
  have hwrap : wrap (y + 1) = y + 1 := wrap_of_lt (by omega)
  have hinside : ¬range.second.y < y + 1 := by omega
  simp only [advance, nextBin, wrap_of_lt hwalk.xBound, Nat.lt_succ_self, if_true, hwrap, hinside,
    if_false]

theorem advance_z {z : ℕ} (hlt : z < range.second.z) :
    advance range ⟨range.second.x, range.second.y, z⟩ =
      some ⟨range.first.x, range.first.y, z + 1⟩ := by
  have hbound := hwalk.zBound
  have hwrap : wrap (z + 1) = z + 1 := wrap_of_lt (by omega)
  have hinside : decide (range.second.z < z + 1) = false := by
    rw [decide_eq_false_iff_not]
    omega
  simp only [advance, nextBin, wrap_of_lt hwalk.xBound, wrap_of_lt hwalk.yBound,
    Nat.lt_succ_self, if_true, hwrap, hinside, Bool.not_false]

theorem advance_last : advance range range.second = none := by
  simp only [advance, nextBin, wrap_of_lt hwalk.xBound, wrap_of_lt hwalk.yBound,
    wrap_of_lt hwalk.zBound, Nat.lt_succ_self, if_true, decide_true, Bool.not_true]

theorem path_row (y z : ℕ) : Path (advance range) ⟨range.first.x, y, z⟩ (rowBins range y z)
    ⟨range.second.x, y, z⟩ := by
  have hx := hwalk.x
  have hpath : Path (advance range) _ (rowBins range y z) _ :=
    Path.flatMap (fun x => (⟨x, y, z⟩ : Index3)) (fun x => ⟨x, y, z⟩) (fun x => [⟨x, y, z⟩])
      range.first.x (range.second.x - range.first.x) (fun x _ _ => .single _)
      (fun x _ hlt => hwalk.advance_x (by omega))
  rwa [Nat.add_sub_cancel' hx] at hpath

theorem path_layer (z : ℕ) : Path (advance range) ⟨range.first.x, range.first.y, z⟩
    (layerBins range z) ⟨range.second.x, range.second.y, z⟩ := by
  have hy := hwalk.y
  have hpath : Path (advance range) _ (layerBins range z) _ :=
    Path.flatMap (fun y => (⟨range.first.x, y, z⟩ : Index3)) (fun y => ⟨range.second.x, y, z⟩)
      (fun y => rowBins range y z) range.first.y (range.second.y - range.first.y)
      (fun y _ _ => hwalk.path_row y z) (fun y _ hlt => hwalk.advance_y (by omega))
  rwa [Nat.add_sub_cancel' hy] at hpath

theorem path_range : Path (advance range) range.first (rangeBins range) range.second := by
  have hz := hwalk.z
  have hpath : Path (advance range) _ (rangeBins range) _ :=
    Path.flatMap (fun z => (⟨range.first.x, range.first.y, z⟩ : Index3))
      (fun z => ⟨range.second.x, range.second.y, z⟩) (layerBins range)
      range.first.z (range.second.z - range.first.z)
      (fun z _ _ => hwalk.path_layer z) (fun z _ hlt => hwalk.advance_z (by omega))
  rwa [Nat.add_sub_cancel' hz] at hpath

end Walkable

theorem nextBin_of_advance {idx next : Index3} (hsome : advance range idx = some next) :
    nextBin range idx = (true, next) := by
  unfold advance at hsome
  cases heq : nextBin range idx with
  | mk more other =>
    rw [heq] at hsome
    cases more with
    | false => cases hsome
    | true =>
      cases hsome
      rfl

variable {idx : Index3}

theorem nextBin_of_advance_none (hnone : advance range idx = none) :
    (nextBin range idx).1 = false := by
  unfold advance at hnone
  cases heq : nextBin range idx with
  | mk more other =>
    rw [heq] at hnone
    cases more with
    | false => rfl
    | true => cases hnone

variable {σ : Type} {visit : σ → Index3 → σ} {iterations : ℕ}

theorem binLoop_next {state : σ} {idx next : Index3} (hnext : nextBin range idx = (true, next)) :
    binLoop visit range (iterations + 1) state idx =
      binLoop visit range iterations (visit state idx) next := by
  simp only [binLoop, hnext]

theorem binLoop_last {state : σ} (hlast : (nextBin range idx).1 = false) :
    binLoop visit range (iterations + 1) state idx = .ok (visit state idx) := by
  cases heq : nextBin range idx with
  | mk more other =>
    rw [heq] at hlast
    cases hlast
    simp only [binLoop, heq]
    rfl

theorem binLoop_of_path {idx last : Index3} {visited : List Index3}
    (hpath : Path (advance range) idx visited last) (hlast : advance range last = none)
    (henough : visited.length ≤ iterations) (state : σ) :
    binLoop visit range iterations state idx = .ok (visited.foldl visit state) := by
  induction hpath generalizing iterations state with
  | single a =>
    cases iterations with
    | zero => cases henough
    | succ more => exact binLoop_last (nextBin_of_advance_none hlast)
  | @cons a b last rest hstep _ ih =>
    cases iterations with
    | zero => cases henough
    | succ more =>
      rw [binLoop_next (nextBin_of_advance hstep), List.foldl_cons]
      exact ih hlast (Nat.le_of_succ_le_succ henough) (visit state a)

theorem binLoop_more {state last : σ}
    (hok : binLoop visit range iterations state idx = .ok last) (more : ℕ) :
    binLoop visit range (iterations + more) state idx = .ok last := by
  induction iterations generalizing state idx with
  | zero => cases hok
  | succ iterations ih =>
    rw [Nat.add_right_comm]
    cases heq : nextBin range idx with
    | mk isNext next =>
      cases isNext with
      | true =>
        rw [binLoop_next heq] at hok ⊢
        exact ih hok
      | false =>
        have hlast : (nextBin range idx).1 = false := by rw [heq]
        rw [binLoop_last hlast] at hok ⊢
        exact hok

end

section

variable {PointT K : Type} [Field K] [LinearOrder K] [PointAdapter PointT K]
  (self : SpatialHash PointT K)

def within (x y z radius : K) : List (Entry PointT) :=
  self.hash.filter fun entry =>
    self.config.distanceSquared x y z entry.point ≤ radius * radius

def foundIn (x y z radius2 : K) (jdx : ℕ) : List (Entry PointT) :=
  self.hash.filter fun entry =>
    entry.bin = jdx ∧ self.config.distanceSquared x y z entry.point ≤ radius2

theorem neighborsIn_entries (sqrtf : K → K) (x y z radius2 : K) (jdx : ℕ) :
    (self.neighborsIn sqrtf x y z radius2 jdx).map Output.entry =
      self.foundIn x y z radius2 jdx := by
  unfold neighborsIn foundIn
  induction self.hash with
  | nil => rfl
  | cons entry rest ih =>
    by_cases hbin : entry.bin = jdx
    · by_cases hnear : self.config.distanceSquared x y z entry.point ≤ radius2
      · simpa [hbin, hnear] using ih
      · simpa [hbin, hnear] using ih
    · simpa [hbin] using ih

/-- The loop collects the neighbors of the candidates. -/
theorem foldl_visitBin (sqrtf : K → K) (x y z radius2 : K)
    (ref : Index3) (bins : List Index3) (state : List (Output PointT K) × ℕ) :
    (bins.foldl (self.visitBin sqrtf x y z radius2 ref) state).1.map Output.entry =
      state.1.map Output.entry ++
        (bins.filter fun idx => self.config.isCandidateBin ref idx radius2).flatMap fun idx =>
          self.foundIn x y z radius2 (self.config.index idx) := by
  induction bins generalizing state with
  | nil => simp
  | cons idx bins ih =>
    rw [List.foldl_cons, ih]
    unfold visitBin
    by_cases hcandidate : self.config.isCandidateBin ref idx radius2 = true
    · simp only [hcandidate, if_true, List.filter_cons_of_pos, List.flatMap_cons,
        List.map_append, neighborsIn_entries, List.append_assoc]
    · have hcandidate' : self.config.isCandidateBin ref idx radius2 = false :=
        Bool.eq_false_iff.mpr hcandidate
      simp [hcandidate']

end

/-! ## Near bins -/

section

variable {K : Type} [Field K] [LinearOrder K] [IsStrictOrderedRing K]

theorem abs_le_of_mul_self_le {a radius : K} (hradius : 0 ≤ radius)
    (hle : a * a ≤ radius * radius) : |a| ≤ radius := by
  have habs := abs_le_iff_mul_self_le.mpr hle
  rwa [abs_of_nonneg hradius] at habs

variable {config : Config K} {PointT : Type} [PointAdapter PointT K]

namespace Config

variable {x y z radius : K} {pt : PointT}

theorem abs_le_of_near (hradius : 0 ≤ radius)
    (hnear : config.distanceSquared x y z pt ≤ radius * radius) :
    |x - PointAdapter.x_ pt| ≤ radius ∧ |y - PointAdapter.y_ pt| ≤ radius ∧
      (config.dimension = .config3d → |z - PointAdapter.z_ pt| ≤ radius) := by
  have hx := mul_self_nonneg (x - PointAdapter.x_ pt)
  have hy := mul_self_nonneg (y - PointAdapter.y_ pt)
  have hz := mul_self_nonneg (z - PointAdapter.z_ pt)
  unfold distanceSquared at hnear
  cases hdimension : config.dimension with
  | config2d =>
    simp only [hdimension] at hnear
    refine ⟨abs_le_of_mul_self_le hradius (by linarith),
      abs_le_of_mul_self_le hradius (by linarith), fun hsolid => ?_⟩
    cases hsolid
  | config3d =>
    simp only [hdimension] at hnear
    exact ⟨abs_le_of_mul_self_le hradius (by linarith),
      abs_le_of_mul_self_le hradius (by linarith),
      fun _ => abs_le_of_mul_self_le hradius (by linarith)⟩

variable [FloorRing K]

/-- No index of the range around a query overflows. -/
def InRange (config : Config K) (x y z radius : K) : Prop :=
  ∀ ref, config.index3 x y z = .ok ref → ∀ axis ∈ [ref.x, ref.y, ref.z],
    (axis : ℤ) + ⌈radius / config.sideLength⌉ < indexSize

structure IsRange (config : Config K) (ref : Index3) (radius : K) (range : BinRange) : Prop where
  binRange_eq : config.binRange ref radius = .ok range
  walkable : Walkable range
  inGrid : ∀ idx, InBox range idx → InGrid config idx
  inBox : ∀ idx, InGrid config idx → (∀ pair ∈ [(ref.x, idx.x), (ref.y, idx.y), (ref.z, idx.z)],
      (pair.1 : ℤ) ≤ pair.2 + ⌈radius / config.sideLength⌉ ∧
        (pair.2 : ℤ) ≤ pair.1 + ⌈radius / config.sideLength⌉) → InBox range idx

theorem axis_walkable {axis maxIdx : ℕ} (iRadius : ℕ) (haxis : axis ≤ maxIdx)
    (hbins : maxIdx + 1 < indexSize) :
    (if iRadius < axis then axis - iRadius else 0) ≤ min (axis + iRadius) maxIdx ∧
      min (axis + iRadius) maxIdx + 1 < indexSize := by
  constructor
  · split_ifs <;> omega
  · omega

theorem axis_inBox {axis maxIdx iRadius i : ℕ} (hi : i ≤ maxIdx) (hbefore : axis ≤ i + iRadius)
    (hafter : i ≤ axis + iRadius) :
    (if iRadius < axis then axis - iRadius else 0) ≤ i ∧ i ≤ min (axis + iRadius) maxIdx := by
  constructor
  · split_ifs <;> omega
  · omega

theorem Grid.exists_range (hgrid : Grid config) {ref : Index3}
    (hcell : IsCell config x y z ref) (hradius : 0 ≤ radius)
    (hinRange : InRange config x y z radius) : ∃ range, IsRange config ref radius range := by
  have hside := hgrid.x.side_pos
  have hnonneg : 0 ≤ ⌈radius / config.sideLength⌉ := Int.ceil_nonneg (div_nonneg hradius hside.le)
  obtain ⟨iRadius, hiRadius⟩ := Int.eq_ofNat_of_zero_le hnonneg
  have hlt := hinRange ref hcell.index3_eq
  simp only [List.forall_mem_cons, List.not_mem_nil, false_implies, implies_true, and_true,
    hiRadius] at hlt
  obtain ⟨hx, hy, hz⟩ := hlt
  have hcast : castIndex ((⌈radius / config.sideLength⌉ : ℤ) : K) = .ok iRadius := by
    rw [castIndex_eq_ok, hiRadius]
    refine ⟨⟨?_, ?_⟩, by simp⟩
    · push_cast
      linarith [(Nat.cast_nonneg iRadius : (0 : K) ≤ iRadius)]
    · have : iRadius < indexSize := by omega
      exact_mod_cast this
  have hwrap : ∀ axis : ℕ, (axis : ℤ) + iRadius < indexSize →
      wrap (axis + iRadius) = axis + iRadius := fun axis hlt => wrap_of_lt (by omega)
  obtain ⟨hxGrid, hyGrid, hzGrid⟩ := hcell.inGrid
  have hxBins := hgrid.xBins
  have hyBins := hgrid.yBins
  have hzBins := hgrid.zBins
  have hrange : config.binRange ref radius = .ok
      ⟨⟨if iRadius < ref.x then ref.x - iRadius else 0,
        if iRadius < ref.y then ref.y - iRadius else 0,
        if iRadius < ref.z then ref.z - iRadius else 0⟩,
      ⟨min (ref.x + iRadius) config.maxXIdx, min (ref.y + iRadius) config.maxYIdx,
        min (ref.z + iRadius) config.maxZIdx⟩⟩ := by
    unfold binRange
    rw [hcast, ← hwrap _ hx, ← hwrap _ hy, ← hwrap _ hz]
    rfl
  refine ⟨_, hrange, ?_, ?_, ?_⟩
  · obtain ⟨hxFirst, hxLast⟩ := axis_walkable iRadius hxGrid hxBins
    obtain ⟨hyFirst, hyLast⟩ := axis_walkable iRadius hyGrid hyBins
    obtain ⟨hzFirst, hzLast⟩ := axis_walkable iRadius hzGrid hzBins
    exact ⟨hxFirst, hyFirst, hzFirst, hxLast, hyLast, hzLast⟩
  · rintro idx ⟨⟨_, hx'⟩, ⟨_, hy'⟩, ⟨_, hz'⟩⟩
    exact ⟨hx'.trans (min_le_right _ _), hy'.trans (min_le_right _ _), hz'.trans (min_le_right _ _)⟩
  · rintro idx ⟨hx', hy', hz'⟩ hpairs
    simp only [List.forall_mem_cons, List.not_mem_nil, false_implies, implies_true, and_true,
      hiRadius] at hpairs
    obtain ⟨hxPair, hyPair, hzPair⟩ := hpairs
    exact ⟨axis_inBox hx' (by omega) (by omega), axis_inBox hy' (by omega) (by omega),
      axis_inBox hz' (by omega) (by omega)⟩

def IsCellOf (config : Config K) (pt : PointT) (idx : Index3) : Prop :=
  IsCell config (PointAdapter.x_ pt) (PointAdapter.y_ pt) (PointAdapter.z_ pt) idx

theorem Grid.inBox_of_near (hgrid : Grid config) {ref idx : Index3} {range : BinRange}
    (href : IsCell config x y z ref) (hidx : IsCellOf config pt idx)
    (hrange : IsRange config ref radius range) (hradius : 0 ≤ radius)
    (hnear : config.distanceSquared x y z pt ≤ radius * radius) : InBox range idx := by
  obtain ⟨hx, hy, hz⟩ := abs_le_of_near hradius hnear
  have hnonneg : 0 ≤ ⌈radius / config.sideLength⌉ :=
    Int.ceil_nonneg (div_nonneg hradius hgrid.x.side_pos.le)
  apply hrange.inBox idx hidx.inGrid
  simp only [List.forall_mem_cons, List.not_mem_nil, false_implies, implies_true, and_true]
  refine ⟨⟨hgrid.x.index_le href.x hidx.x hx, ?_⟩, ⟨hgrid.y.index_le href.y hidx.y hy, ?_⟩, ?_⟩
  · rw [abs_sub_comm] at hx
    exact hgrid.x.index_le hidx.x href.x hx
  · rw [abs_sub_comm] at hy
    exact hgrid.y.index_le hidx.y href.y hy
  · cases hdimension : config.dimension with
    | config2d =>
      rw [href.flat hdimension, hidx.flat hdimension]
      omega
    | config3d =>
      have haxis := hgrid.z hdimension
      have hclose := hz hdimension
      refine ⟨haxis.index_le (href.z hdimension) (hidx.z hdimension) hclose, ?_⟩
      rw [abs_sub_comm] at hclose
      exact haxis.index_le (hidx.z hdimension) (href.z hdimension) hclose

theorem Grid.isCandidateBin_of_near (hgrid : Grid config) {x y z radius2 : K}
    {ref idx : Index3} (href : IsCell config x y z ref)
    (hidx : IsCellOf config pt idx) (hnear : config.distanceSquared x y z pt ≤ radius2) :
    config.isCandidateBin ref idx radius2 = true := by
  have hx := hgrid.x.sq_idxDistance_le href.x hidx.x
  have hy := hgrid.y.sq_idxDistance_le href.y hidx.y
  unfold distanceSquared at hnear
  unfold isCandidateBin
  rw [hgrid.side2]
  cases hdimension : config.dimension with
  | config2d =>
    simp only [hdimension] at hnear
    simp only [decide_eq_true_eq]
    refine le_trans ?_ hnear
    rw [add_mul]
    exact add_le_add hx hy
  | config3d =>
    have hz := (hgrid.z hdimension).sq_idxDistance_le (href.z hdimension) (hidx.z hdimension)
    simp only [hdimension] at hnear
    simp only [decide_eq_true_eq]
    refine le_trans ?_ hnear
    rw [add_mul, add_mul]
    exact add_le_add (add_le_add hx hy) hz

end Config

variable [FloorRing K]

/-- The elements are in the bins of their points, and have iterators of their own. -/
structure Stored (store : SpatialHash PointT K) : Prop where
  nodup : (store.hash.map Entry.iterator).Nodup
  bin : ∀ entry ∈ store.hash, ∃ idx, Config.IsCellOf store.config entry.point idx ∧
    entry.bin = store.config.index idx

theorem nearImpl_succeeds {self : SpatialHash PointT K} (hgrid : self.config.Grid)
    (hstored : Stored self) (sqrtf : K → K) {x y z radius : K} (hradius : 0 ≤ radius)
    (hinRange : self.config.InRange x y z radius) :
    ∃ enough, ∀ iterations ≥ enough, ∃ after outputs,
      self.nearImpl sqrtf iterations x y z radius = .ok (after, outputs) ∧ after.hash = self.hash ∧
        (outputs.map Output.entry).Perm (self.within x y z radius) := by
  obtain ⟨ref, href⟩ := hgrid.exists_cell x y z
  obtain ⟨range, hrange⟩ := hgrid.exists_range href hradius hinRange
  have hwalk := hrange.walkable
  have hhash : self.hash.Nodup := hstored.nodup.of_map _
  refine ⟨(rangeBins range).length, fun iterations henough => ?_⟩
  have hloop : binLoop (self.visitBin sqrtf x y z (radius * radius) ref) range iterations
      ([], self.binsHit) range.first = .ok _ :=
    binLoop_of_path hwalk.path_range hwalk.advance_last henough _
  have hfound := self.foldl_visitBin sqrtf x y z (radius * radius) ref (rangeBins range)
    ([], self.binsHit)
  generalize hresult : (rangeBins range).foldl
    (self.visitBin sqrtf x y z (radius * radius) ref) ([], self.binsHit) = result at hloop hfound
  refine ⟨{ self with
    binsHit := result.2
    neighborsFound := wrap (self.neighborsFound + result.1.length) }, result.1, ?_, rfl, ?_⟩
  · unfold nearImpl
    exact bind_eq_ok.mpr ⟨ref, href.index3_eq, bind_eq_ok.mpr ⟨range, hrange.binRange_eq,
      bind_eq_ok.mpr ⟨result, hloop, rfl⟩⟩⟩
  · rw [hfound, List.map_nil, List.nil_append]
    refine (List.perm_ext_iff_of_nodup ?_ (hhash.filter _)).mpr fun entry => ?_
    · apply nodup_flatMap ((Walkable.nodup_rangeBins range).filter _)
      · exact fun idx _ => hhash.filter _
      · intro idx hidx other hother entry hentry hentry'
        have hgridIdx := hrange.inGrid idx (hwalk.mem_rangeBins.mp (List.mem_of_mem_filter hidx))
        have hgridOther := hrange.inGrid other
          (hwalk.mem_rangeBins.mp (List.mem_of_mem_filter hother))
        have hbin := (of_decide_eq_true (List.mem_filter.mp hentry).2).1
        have hbin' := (of_decide_eq_true (List.mem_filter.mp hentry').2).1
        exact hgrid.index_inj hgridIdx hgridOther (hbin.symm.trans hbin')
    · rw [List.mem_flatMap]
      constructor
      · rintro ⟨idx, _, hentry⟩
        obtain ⟨hmem, hcond⟩ := List.mem_filter.mp hentry
        exact List.mem_filter.mpr ⟨hmem, decide_eq_true (of_decide_eq_true hcond).2⟩
      · intro hentry
        obtain ⟨hmem, hnear⟩ := List.mem_filter.mp hentry
        obtain ⟨idx, hidx, hbin⟩ := hstored.bin entry hmem
        have hnear' := of_decide_eq_true hnear
        refine ⟨idx, List.mem_filter.mpr ⟨?_, ?_⟩, ?_⟩
        · exact hwalk.mem_rangeBins.mpr (hgrid.inBox_of_near href hidx hrange hradius hnear')
        · exact hgrid.isCandidateBin_of_near href hidx hnear'
        · exact List.mem_filter.mpr ⟨hmem, decide_eq_true ⟨hbin, hnear'⟩⟩

end

/-!
## Runs of the spatial hash

A sequence of calls leaves the points that were inserted and not erased.  Queries
find exactly the near ones of these, whatever bins they are in, as long as the bins
have indices of their own.
-/

/-- The calls that change the hash. -/
inductive Operation (PointT : Type) where
  | insert (pt : PointT)
  | insertRange (pts : List PointT)
  | erase (point : ℕ)
  | clear

/-! ## What is stored -/

/-- The stored points with their iterators, whatever the bins are. -/
structure Contents (PointT : Type) where
  stored : List (PointT × ℕ)
  created : ℕ

namespace Contents

variable {PointT : Type} (contents : Contents PointT)

def add (pts : List PointT) : Contents PointT where
  stored := contents.stored ++ pts.zipIdx contents.created
  created := contents.created + pts.length

def insertRange (capacity : ℕ) (pts : List PointT) : Contents PointT × Except Failure Unit :=
  if contents.stored.length + pts.length ≤ capacity then (contents.add pts, .ok ())
  else (contents, .error .lengthError)

def perform (capacity : ℕ) : Operation PointT → Contents PointT × Except Failure Unit
  | .insert pt => contents.insertRange capacity [pt]
  | .insertRange pts => contents.insertRange capacity pts
  | .erase point =>
    if point ∈ contents.stored.map Prod.snd then
      ({ contents with stored := contents.stored.filter fun entry => entry.2 ≠ point }, .ok ())
    else (contents, .error .invalidIterator)
  | .clear => ({ contents with stored := [] }, .ok ())

def performAll (capacity : ℕ) (contents : Contents PointT) :
    List (Operation PointT) → Contents PointT × List (Except Failure Unit)
  | [] => (contents, [])
  | operation :: rest =>
    let (after, outcome) := contents.perform capacity operation
    let (last, outcomes) := performAll capacity after rest
    (last, outcome :: outcomes)

end Contents

section

variable {PointT K : Type}

def contents (self : SpatialHash PointT K) : Contents PointT where
  stored := self.hash.map fun entry => (entry.point, entry.iterator)
  created := self.created

theorem length_contents (self : SpatialHash PointT K) : self.contents.stored.length = self.size :=
  List.length_map _

variable [Field K] [LinearOrder K] [FloorRing K] [PointAdapter PointT K]

def perform (self : SpatialHash PointT K) :
    Operation PointT → SpatialHash PointT K × Except Failure Unit
  | .insert pt => self.insert pt
  | .insertRange pts => self.insertRange pts
  | .erase point => self.erase point
  | .clear => (self.clear, .ok ())

def performAll (self : SpatialHash PointT K) :
    List (Operation PointT) → SpatialHash PointT K × List (Except Failure Unit)
  | [] => (self, [])
  | operation :: rest =>
    let (after, outcome) := self.perform operation
    let (last, outcomes) := after.performAll rest
    (last, outcome :: outcomes)

/-! ## One call -/

/-- The elements are in their bins, and the free iterators point to none. -/
structure Valid (store : SpatialHash PointT K) : Prop where
  grid : store.config.Grid
  stored : Stored store
  fresh : ∀ entry ∈ store.hash, entry.iterator < store.created

structure Refines (before : SpatialHash PointT K)
    (result : SpatialHash PointT K × Except Failure Unit)
    (expected : Contents PointT × Except Failure Unit) : Prop where
  valid : Valid result.1
  config : result.1.config = before.config
  contents : result.1.contents = expected.1
  outcome : result.2 = expected.2

/-- The third coordinate is not used in two dimensions. -/
theorem Config.flat (PointT : Type) [PointAdapter PointT K] {config : Config K}
    (hflat : config.dimension = .config2d) (x y z : K) :
    config.index3 x y z = config.index3 x y 0 ∧
      ∀ pt : PointT, config.distanceSquared x y z pt = config.distanceSquared x y 0 pt := by
  unfold index3 distanceSquared
  rw [hflat]
  exact ⟨rfl, fun _ => rfl⟩

variable {self : SpatialHash PointT K}

theorem erase_refines (hvalid : Valid self) (point : ℕ) :
    Refines self (self.erase point) (self.contents.perform self.capacity (.erase point)) := by
  have hmem : point ∈ self.contents.stored.map Prod.snd ↔
      ∃ entry ∈ self.hash, entry.iterator = point := by
    simp [contents]
  unfold erase
  cases hfind : self.hash.find? fun entry => entry.iterator = point with
  | none =>
    have habsent : point ∉ self.contents.stored.map Prod.snd := by
      rw [hmem]
      rintro ⟨entry, hentry, hsame⟩
      exact List.find?_eq_none.mp hfind entry hentry (decide_eq_true hsame)
    refine ⟨hvalid, rfl, ?_, ?_⟩
    · simp only [Contents.perform, habsent, if_false]
    · simp only [Contents.perform, habsent, if_false]
      rfl
  | some found =>
    have hfound := List.mem_of_find?_eq_some hfind
    have hsame : found.iterator = point := by simpa using List.find?_some hfind
    have hbin : (self.hash.any fun entry => entry.bin = found.bin) = true :=
      List.any_eq_true.mpr ⟨found, hfound, decide_eq_true rfl⟩
    have hpresent := hmem.mpr ⟨found, hfound, hsame⟩
    simp only [hbin, if_true]
    refine ⟨⟨hvalid.grid, ⟨?_, ?_⟩, ?_⟩, rfl, ?_, ?_⟩
    · exact hvalid.stored.nodup.sublist (List.filter_sublist.map _)
    · exact fun entry hentry => hvalid.stored.bin entry (List.mem_of_mem_filter hentry)
    · exact fun entry hentry => hvalid.fresh entry (List.mem_of_mem_filter hentry)
    · simp only [Contents.perform, hpresent, if_true]
      simp only [contents, List.filter_map]
      rfl
    · simp only [Contents.perform, hpresent, if_true]
      rfl

theorem near_more {sqrtf : K → K} {iterations : ℕ} {x y z radius : K}
    {result : SpatialHash PointT K × List (Output PointT K)}
    (hok : self.near sqrtf iterations x y z radius = .ok result) (more : ℕ) :
    self.near sqrtf (iterations + more) x y z radius = .ok result := by
  have hmore : ∀ z', self.nearImpl sqrtf iterations x y z' radius = .ok result →
      self.nearImpl sqrtf (iterations + more) x y z' radius = .ok result := by
    intro z' hok
    unfold nearImpl at hok ⊢
    obtain ⟨ref, href, hok⟩ := bind_eq_ok.mp hok
    obtain ⟨range, hrange, hok⟩ := bind_eq_ok.mp hok
    obtain ⟨visited, hloop, hok⟩ := bind_eq_ok.mp hok
    exact bind_eq_ok.mpr ⟨ref, href, bind_eq_ok.mpr ⟨range, hrange,
      bind_eq_ok.mpr ⟨visited, binLoop_more hloop more, hok⟩⟩⟩
  unfold near at hok ⊢
  split at hok
  · exact hmore 0 hok
  · exact hmore z hok

variable [IsStrictOrderedRing K]

section

variable (hvalid : Valid self)

include hvalid

theorem insertImpl_refines (pt : PointT) :
    Refines self (self.insertImpl pt) (self.contents.add [pt], .ok ()) := by
  obtain ⟨idx, hidx⟩ := hvalid.grid.exists_cell (PointAdapter.x_ pt) (PointAdapter.y_ pt)
    (PointAdapter.z_ pt)
  unfold insertImpl
  rw [hidx.bin_eq]
  refine ⟨⟨hvalid.grid, ⟨?_, ?_⟩, ?_⟩, rfl, ?_, rfl⟩
  · dsimp only
    rw [List.map_append]
    refine hvalid.stored.nodup.append (List.nodup_singleton _) (List.disjoint_singleton.mpr ?_)
    intro hmem
    obtain ⟨entry, hentry, hsame⟩ := List.mem_map.mp hmem
    exact (hvalid.fresh entry hentry).ne hsame
  · intro entry hentry
    rcases List.mem_append.mp hentry with hold | hnew
    · exact hvalid.stored.bin entry hold
    · rw [List.mem_singleton.mp hnew]
      exact ⟨idx, hidx, rfl⟩
  · intro entry hentry
    rcases List.mem_append.mp hentry with hold | hnew
    · exact Nat.lt_succ_of_lt (hvalid.fresh entry hold)
    · rw [List.mem_singleton.mp hnew]
      exact Nat.lt_succ_self _
  · simp [contents, Contents.add]

theorem insertLoop_refines (pts : List PointT) :
    Refines self (self.insertLoop pts) (self.contents.add pts, .ok ()) := by
  induction pts generalizing self with
  | nil =>
    refine ⟨hvalid, rfl, ?_, rfl⟩
    simp [insertLoop, Contents.add]
  | cons pt rest ih =>
    obtain ⟨hvalid', hconfig, hcontents, houtcome⟩ := insertImpl_refines hvalid pt
    unfold insertLoop
    generalize self.insertImpl pt = result at *
    obtain ⟨inserted, outcome⟩ := result
    simp only at hvalid' hconfig hcontents houtcome
    rw [houtcome]
    obtain ⟨hvalid'', hconfig', hcontents', houtcome'⟩ := ih hvalid'
    refine ⟨hvalid'', hconfig'.trans hconfig, ?_, houtcome'⟩
    rw [hcontents', hcontents]
    simp [Contents.add, List.zipIdx_cons, Nat.add_assoc, Nat.add_comm 1]

theorem insertRange_refines (pts : List PointT) :
    Refines self (self.insertRange pts) (self.contents.insertRange self.capacity pts) := by
  unfold insertRange Contents.insertRange
  rw [length_contents]
  by_cases hexceeds : self.capacity < self.size + pts.length
  · rw [if_pos hexceeds, if_neg (not_le.mpr hexceeds)]
    exact ⟨hvalid, rfl, rfl, rfl⟩
  · rw [if_neg hexceeds, if_pos (not_lt.mp hexceeds)]
    exact insertLoop_refines hvalid pts

theorem insert_refines (pt : PointT) :
    Refines self (self.insert pt) (self.contents.insertRange self.capacity [pt]) := by
  unfold insert Contents.insertRange
  rw [length_contents, List.length_singleton]
  by_cases hexceeds : self.capacity ≤ self.size
  · rw [if_pos hexceeds, if_neg (Nat.not_le_of_lt (Nat.lt_succ_of_le hexceeds))]
    exact ⟨hvalid, rfl, rfl, rfl⟩
  · rw [if_neg hexceeds, if_pos (Nat.succ_le_of_lt (Nat.lt_of_not_le hexceeds))]
    exact insertImpl_refines hvalid pt

theorem perform_refines (operation : Operation PointT) :
    Refines self (self.perform operation) (self.contents.perform self.capacity operation) := by
  cases operation with
  | insert pt => exact insert_refines hvalid pt
  | insertRange pts => exact insertRange_refines hvalid pts
  | erase point => exact erase_refines hvalid point
  | clear =>
    refine ⟨⟨hvalid.grid, ⟨List.nodup_nil, ?_⟩, ?_⟩, rfl, rfl, rfl⟩
    · intro entry hentry
      cases hentry
    · intro entry hentry
      cases hentry

/-! ## All calls -/

/-- The hash after any calls holds the contents after these calls. -/
theorem performAll_refines (operations : List (Operation PointT)) :
    let reached := self.performAll operations
    let expected := self.contents.performAll self.capacity operations
    Valid reached.1 ∧ reached.1.config = self.config ∧ reached.1.contents = expected.1 ∧
      reached.2 = expected.2 := by
  induction operations generalizing self with
  | nil => exact ⟨hvalid, rfl, rfl, rfl⟩
  | cons operation rest ih =>
    obtain ⟨hvalid', hconfig, hcontents, houtcome⟩ := perform_refines hvalid operation
    obtain ⟨hlast, hconfig', hcontents', houtcomes⟩ := ih hvalid'
    have hcapacity : (self.perform operation).1.capacity = self.capacity := by
      unfold capacity
      rw [hconfig]
    rw [hcapacity, hcontents] at hcontents' houtcomes
    refine ⟨hlast, hconfig'.trans hconfig, hcontents', ?_⟩
    change (self.perform operation).2 :: ((self.perform operation).1.performAll rest).2 = _
    rw [houtcome, houtcomes]
    rfl

theorem near_succeeds (sqrtf : K → K) {x y z radius : K}
    (hradius : 0 ≤ radius) (hinRange : self.config.InRange x y z radius) :
    ∃ enough, ∀ iterations ≥ enough, ∃ after outputs,
      self.near sqrtf iterations x y z radius = .ok (after, outputs) ∧ after.hash = self.hash ∧
        (outputs.map Output.entry).Perm (self.within x y z radius) := by
  unfold near
  cases hdimension : self.config.dimension with
  | config2d =>
    obtain ⟨hindex, hdistance⟩ := Config.flat PointT hdimension x y z
    have hinRange' : self.config.InRange x y 0 radius := by
      unfold Config.InRange at hinRange ⊢
      rwa [← hindex]
    have hwithin : self.within x y z radius = self.within x y 0 radius := by
      unfold within
      simp only [hdistance]
    rw [hwithin]
    exact nearImpl_succeeds hvalid.grid hvalid.stored sqrtf hradius hinRange'
  | config3d => exact nearImpl_succeeds hvalid.grid hvalid.stored sqrtf hradius hinRange

end

def NearIsExact (self : SpatialHash PointT K) (stored : List (PointT × ℕ)) (x y z radius : K) :
    Prop :=
  ∀ sqrtf : K → K, ∃ enough, ∀ iterations ≥ enough, ∃ after outputs,
    self.near sqrtf iterations x y z radius = .ok (after, outputs) ∧ after.hash = self.hash ∧
      (outputs.map fun output => (output.entry.point, output.entry.iterator)).Perm
        (stored.filter fun entry =>
          self.config.distanceSquared x y z entry.1 ≤ radius * radius)

/-- The hash holds the contents, a call that would exceed the capacity throws and changes
nothing, and every query in the range of the indices is exact. -/
structure IsExact (store : SpatialHash PointT K) (expected : Contents PointT) (config : Config K) :
    Prop where
  config_eq : store.config = config
  contents_eq : store.contents = expected
  insert : ∀ pt, config.capacity < expected.stored.length + 1 →
    store.insert pt = (store, .error .lengthError)
  insertRange : ∀ pts, config.capacity < expected.stored.length + pts.length →
    store.insertRange pts = (store, .error .lengthError)
  near : ∀ x y z radius, 0 ≤ radius → config.InRange x y z radius →
    NearIsExact store expected.stored x y z radius

theorem Valid.isExact (hvalid : Valid self) : IsExact self self.contents self.config where
  config_eq := rfl
  contents_eq := rfl
  insert := by
    intro pt hexceeds
    rw [length_contents] at hexceeds
    exact if_pos (Nat.lt_succ_iff.mp hexceeds)
  insertRange := by
    intro pts hexceeds
    rw [length_contents] at hexceeds
    exact if_pos hexceeds
  near := by
    intro x y z radius hradius hinRange sqrtf
    obtain ⟨enough, hnear⟩ := near_succeeds hvalid sqrtf hradius hinRange
    refine ⟨enough, fun iterations henough => ?_⟩
    obtain ⟨after, outputs, hok, hhash, hperm⟩ := hnear iterations henough
    refine ⟨after, outputs, hok, hhash, ?_⟩
    have hkeys := hperm.map fun entry : Entry PointT => (entry.point, entry.iterator)
    rw [List.map_map] at hkeys
    refine hkeys.trans (.of_eq ?_)
    unfold within contents
    rw [List.filter_map]
    rfl

/-- Whatever the calls are, the hash is exact where the bins and the queries fit. -/
theorem isExact_of_performAll {config : Config K} (haccepted : config.Accepted)
    (hfits : config.Fits) (operations : List (Operation PointT)) :
    let reached := (create config : SpatialHash PointT K).performAll operations
    let expected := Contents.performAll config.capacity ⟨[], 0⟩ operations
    IsExact reached.1 expected.1 config ∧ reached.2 = expected.2 := by
  have hvalid : Valid (create config : SpatialHash PointT K) := by
    refine ⟨.of_accepted haccepted hfits, ⟨List.nodup_nil, ?_⟩, ?_⟩
    · intro entry hentry
      cases hentry
    · intro entry hentry
      cases hentry
  obtain ⟨hreached, hconfig, hcontents, houtcomes⟩ := performAll_refines hvalid operations
  have hexact := hreached.isExact
  rw [hconfig, hcontents] at hexact
  exact ⟨hexact, houtcomes⟩

end

structure Point32 where
  x : ℚ
  y : ℚ
  z : ℚ
  deriving DecidableEq

instance : PointAdapter Point32 ℚ where
  x_ := Point32.x
  y_ := Point32.y
  z_ := Point32.z

/-- A grid of six by six by four bins. -/
def smallConfig : Config ℚ where
  dimension := .config3d
  minX := -3
  minY := -3
  minZ := -2
  maxX := 3 - floatEpsilon
  maxY := 3 - floatEpsilon
  maxZ := 2 - floatEpsilon
  sideLength := 1
  sideLength2 := 1
  sideLengthInv := 1
  capacity := 3
  maxXIdx := 6
  maxYIdx := 6
  maxZIdx := 4
  yStride := 7
  zStride := 49

theorem accepted_smallConfig : smallConfig.Accepted := by
  refine .inr ⟨-3, 3, -3, 3, -2, 2, 1, 3, ?_⟩
  decide +kernel

theorem fits_smallConfig : smallConfig.Fits := by
  refine ⟨?_, ?_, fun _ => ?_, ?_, ?_, ?_⟩ <;> decide +kernel

theorem isExact_smallConfig :
    let operations : List (Operation Point32) :=
      [.insertRange [⟨0, 0, 0⟩, ⟨1, 1, 1⟩], .insert ⟨5, 0, 0⟩, .insert ⟨2, 0, 0⟩, .erase 0]
    let reached := (create smallConfig : SpatialHash Point32 ℚ).performAll operations
    let expected := Contents.performAll smallConfig.capacity ⟨[], 0⟩ operations
    IsExact reached.1 expected.1 smallConfig ∧ reached.2 = expected.2 :=
  isExact_of_performAll accepted_smallConfig fits_smallConfig _

/-- A grid whose layers overflow: two rows of one layer have the indices of a row of the
next one. -/
def overflowingConfig : Config ℚ where
  dimension := .config3d
  minX := 0
  minY := 0
  minZ := 0
  maxX := 2 ^ 32 - floatEpsilon
  maxY := 2 ^ 32 - floatEpsilon
  maxZ := 8 - floatEpsilon
  sideLength := 1
  sideLength2 := 1
  sideLengthInv := 1
  capacity := 2
  maxXIdx := 2 ^ 32
  maxYIdx := 2 ^ 32
  maxZIdx := 8
  yStride := 2 ^ 32 + 1
  zStride := 2 ^ 33 + 1

/-- The only stored point is found in two bins. -/
theorem not_nearIsExact_overflowingConfig : overflowingConfig.Accepted ∧
    let operations : List (Operation Point32) := [.insert ⟨3 / 2, 1 / 2, 3 / 2⟩]
    let reached := (create overflowingConfig : SpatialHash Point32 ℚ).performAll operations
    let expected := Contents.performAll overflowingConfig.capacity ⟨[], 0⟩ operations
    ¬NearIsExact reached.1 expected.1.stored (3 / 2) (3 / 2) (3 / 2) 2 := by
  refine ⟨.inr ⟨0, 2 ^ 32, 0, 2 ^ 32, 0, 8, 1, 2, by decide +kernel⟩, fun hexact => ?_⟩
  obtain ⟨enough, hnear⟩ := hexact id
  obtain ⟨after, outputs, hok, _, hperm⟩ := hnear (64 + enough) (Nat.le_add_left _ _)
  have hfound : ((((create overflowingConfig : SpatialHash Point32 ℚ).performAll
      [.insert ⟨3 / 2, 1 / 2, 3 / 2⟩]).1.near id 64 (3 / 2) (3 / 2) (3 / 2) 2).toOption.map
        fun result => result.2.length) = some 2 := by
    decide +kernel
  obtain ⟨found, hfound, hlength⟩ := Option.map_eq_some_iff.mp hfound
  have hsame := near_more (toOption_eq_some.mp hfound) enough
  rw [hok] at hsame
  cases hsame
  have hlength' := hperm.length_eq
  rw [List.length_map, hlength] at hlength'
  revert hlength'
  decide +kernel

end AutowareUniverse.Common.SpatialHash
