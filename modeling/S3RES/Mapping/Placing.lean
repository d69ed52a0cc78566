import S3RES.Mapping.Obstacles

/-!
# Where obstacles are recorded

`gridify` truncates toward zero and takes the edge of the map back into the last cell;
`addObstacle` ignores what is not on the map. Coordinates are read as exact rationals.

`placed_iff`: a point is recorded in a cell that contains it, and nothing is recorded of a point
outside the map, unless the point is less than the width of a cell away from the map. Such a point
is taken for one of the nearest cell.
-/

namespace S3RES.Mapping

/-! ### Points and cells -/

/-- The point is in the square of the map. -/
def InMapSquare (p : PointD) : Prop :=
  (-offsetX ≤ p.x ∧ p.x ≤ mapSize - offsetX) ∧ (-offsetY ≤ p.y ∧ p.y ≤ mapSize - offsetY)

/-- The point is in the closed square of the cell. -/
def InCell (p : PointD) (x y : ℤ) : Prop :=
  (x * interval - offsetX ≤ p.x ∧ p.x ≤ (x + 1) * interval - offsetX) ∧
    (y * interval - offsetY ≤ p.y ∧ p.y ≤ (y + 1) * interval - offsetY)

/-- In both directions the point is less than the width of a cell away from the map. -/
def NearMap (p : PointD) : Prop :=
  (-offsetX - interval < p.x ∧ p.x < mapSize - offsetX + interval) ∧
    (-offsetY - interval < p.y ∧ p.y < mapSize - offsetY + interval)

/-- The row or column of the map nearest to a coordinate, in units of a cell. -/
def nearest (t : ℚ) : ℤ := max 0 (min (gridNum - 1) ⌊t⌋)

/-- The cell of the map nearest to the point. -/
def nearestCell (p : PointD) : PointI :=
  ⟨nearest ((p.x + offsetX) / interval), nearest ((p.y + offsetY) / interval)⟩

/-- The cells of `obstacle_map` that `addObstacle` looks at. -/
def accessed (obs : PointI) : List PointI :=
  if obs.x < 0 ∨ obs.x > gridNum ∨ obs.y < 0 ∨ obs.y > gridNum then [] else [obs]

/-- The point is recorded where it is: no access is outside the array, the cell that changes
contains the point, and a point outside the map changes nothing. -/
structure Placed (m : Mapper) (p : PointD) : Prop where
  inside : ∀ c ∈ accessed (gridify p), InGrid c.x c.y
  located : ∀ x y, (addObstacle m (gridify p)).1.obstacleMap x y ≠ m.obstacleMap x y →
    InMapSquare p ∧ InCell p x y
  ignored : ¬ InMapSquare p → (addObstacle m (gridify p)).1.obstacleMap = m.obstacleMap

/-! ### One direction -/

variable {m : Mapper} {p : PointD} {obs : PointI} {t : ℚ} {x y : ℤ}

/-- What `gridify` makes of a coordinate, in units of a cell. -/
def corrected (t : ℚ) : ℤ := if truncate t = gridNum then truncate t - 1 else truncate t

/-- A coordinate less than a cell away from the map is taken for one on the map. -/
theorem corrected_onGrid_iff :
    0 ≤ corrected t ∧ corrected t < gridNum ↔ -1 < t ∧ t < gridNum + 1 := by
  rw [← truncate_nonneg_iff, ← truncate_le_iff, corrected]
  have hpos : (0 : ℤ) < gridNum := by decide
  split <;> omega

/-- It is taken for the nearest row or column. -/
theorem corrected_eq_nearest (h : -1 < t ∧ t < gridNum + 1) : corrected t = nearest t := by
  have hlast := (truncate_le_iff gridNum).mpr h.2
  rw [corrected, nearest]
  rw [truncate] at hlast ⊢
  have hpos : (0 : ℤ) < gridNum := by decide
  by_cases hnonneg : 0 ≤ t
  · have hfloor : 0 ≤ ⌊t⌋ := Int.floor_nonneg.mpr hnonneg
    rw [if_pos hnonneg] at hlast ⊢
    split <;> omega
  · -- before the first cell
    have hceil : ⌈t⌉ = 0 := Int.ceil_eq_zero_iff.mpr ⟨h.1, (not_le.mp hnonneg).le⟩
    have hfloor : ⌊t⌋ < 0 := Int.floor_lt.mpr (by push_cast; exact not_le.mp hnonneg)
    rw [if_neg hnonneg, hceil]
    omega

/-- On the map the row or column contains the coordinate. -/
theorem corrected_contains (h : 0 ≤ t ∧ t ≤ gridNum) :
    (corrected t : ℚ) ≤ t ∧ t ≤ (corrected t : ℚ) + 1 := by
  have hle := Int.floor_le t
  have hlt := Int.lt_floor_add_one t
  rw [corrected, truncate, if_pos h.1]
  split
  · -- the far edge belongs to the last row or column
    rename_i hedge
    rw [hedge] at hle ⊢
    push_cast at hle ⊢
    exact ⟨by linarith, by linarith [h.2]⟩
  · exact ⟨hle, hlt.le⟩

/-! ### Points -/

theorem gridify_eq (p : PointD) : gridify p =
    ⟨corrected ((p.x + offsetX) / interval), corrected ((p.y + offsetY) / interval)⟩ := rfl

theorem interval_pos : 0 < interval := by norm_num [interval, mapSize, gridNum]

/-- The units of a cell. -/
theorem scaled_iff {q offset : ℚ} :
    (-offset - interval < q ∧ q < mapSize - offset + interval ↔
      -1 < (q + offset) / interval ∧ (q + offset) / interval < gridNum + 1) ∧
    (-offset ≤ q ∧ q ≤ mapSize - offset ↔
      0 ≤ (q + offset) / interval ∧ (q + offset) / interval ≤ gridNum) ∧
    ∀ k : ℤ, k * interval - offset ≤ q ∧ q ≤ (k + 1) * interval - offset ↔
      (k : ℚ) ≤ (q + offset) / interval ∧ (q + offset) / interval ≤ k + 1 := by
  have hsize : mapSize = gridNum * interval := by norm_num [interval, mapSize, gridNum]
  have hpos := interval_pos
  refine ⟨?_, ?_, fun k => ?_⟩
  · rw [lt_div_iff₀ hpos, div_lt_iff₀ hpos, hsize]
    constructor <;> rintro ⟨h, h'⟩ <;> constructor <;> linarith
  · rw [le_div_iff₀ hpos, div_le_iff₀ hpos, hsize]
    constructor <;> rintro ⟨h, h'⟩ <;> constructor <;> linarith
  · rw [le_div_iff₀ hpos, div_le_iff₀ hpos]
    constructor <;> rintro ⟨h, h'⟩ <;> constructor <;> linarith

theorem inGrid_gridify_iff (p : PointD) :
    InGrid (gridify p).x (gridify p).y ↔ NearMap p := by
  rw [gridify_eq, InGrid, NearMap, scaled_iff.1, scaled_iff.1, ← corrected_onGrid_iff,
    ← corrected_onGrid_iff, and_assoc]

theorem gridify_eq_nearestCell (h : NearMap p) : gridify p = nearestCell p := by
  rw [gridify_eq, nearestCell, corrected_eq_nearest (scaled_iff.1.mp h.1),
    corrected_eq_nearest (scaled_iff.1.mp h.2)]

theorem inCell_gridify (h : InMapSquare p) : InCell p (gridify p).x (gridify p).y := by
  rw [gridify_eq]
  exact ⟨(scaled_iff.2.2 _).mpr (corrected_contains (scaled_iff.2.1.mp h.1)),
    (scaled_iff.2.2 _).mpr (corrected_contains (scaled_iff.2.1.mp h.2))⟩

/-! ### What changes -/

/-- `addObstacle` changes the count of its cell, if that is on the map and not known yet. -/
theorem addObstacle_changes_iff (hx : obs.x ≠ gridNum) (hy : obs.y ≠ gridNum) :
    (addObstacle m obs).1.obstacleMap x y ≠ m.obstacleMap x y ↔
      InGrid obs.x obs.y ∧ ¬ m.Knows obs.x obs.y ∧ x = obs.x ∧ y = obs.y := by
  by_cases hcell : InGrid obs.x obs.y
  · by_cases hknown : m.Knows obs.x obs.y
    · have hsame : (addObstacle m obs).1 = m := by
        rw [addObstacle]
        split
        · rfl
        · rw [if_pos (show m.obstacleMap obs.x obs.y > obsThres from hknown)]
      exact iff_of_false (fun h => h (by rw [hsame])) fun h => h.2.1 hknown
    · rw [(addObstacle_spec hcell hknown).1, and_iff_right hcell, and_iff_right hknown]
      split
      · rename_i heq
        rw [heq.1, heq.2]
        exact iff_of_true (Nat.succ_ne_self _) ⟨rfl, rfl⟩
      · rename_i hne
        exact iff_of_false (fun h => h rfl) hne
  · have hout : obs.x < 0 ∨ obs.x > gridNum ∨ obs.y < 0 ∨ obs.y > gridNum := by
      simp only [InGrid] at hcell
      omega
    rw [addObstacle, if_pos hout]
    exact iff_of_false (fun h => h rfl) fun h => hcell h.1

/-- Nothing outside the array is looked at. -/
theorem inGrid_accessed (p : PointD) : ∀ c ∈ accessed (gridify p), InGrid c.x c.y := by
  intro c hc
  obtain ⟨hx, hy⟩ := gridify_ne p
  rw [accessed] at hc
  split at hc
  · exact absurd hc List.not_mem_nil
  · obtain rfl := List.mem_singleton.mp hc
    rw [InGrid]
    omega

/-- **Recorded where it is.** A point is recorded in a cell that contains it, and otherwise not
at all, exactly when it is on the map, or a cell's width or more away from it, or the nearest
cell is known already. -/
theorem placed_iff (m : Mapper) (p : PointD) : Placed m p ↔
    InMapSquare p ∨ ¬ NearMap p ∨ m.Knows (nearestCell p).x (nearestCell p).y := by
  have hchanges : ∀ {x y}, (addObstacle m (gridify p)).1.obstacleMap x y ≠ m.obstacleMap x y ↔
      NearMap p ∧ ¬ m.Knows (gridify p).x (gridify p).y ∧ x = (gridify p).x ∧ y = (gridify p).y := by
    intro x y
    rw [addObstacle_changes_iff (gridify_ne p).1 (gridify_ne p).2, inGrid_gridify_iff]
  constructor
  · -- a point near the map but not on it would change the nearest cell
    intro h
    by_contra hnone
    rw [not_or, not_or, not_not] at hnone
    obtain ⟨houtside, hnear, hunknown⟩ := hnone
    rw [← gridify_eq_nearestCell hnear] at hunknown
    exact houtside (h.located _ _ (hchanges.mpr ⟨hnear, hunknown, rfl, rfl⟩)).1
  · intro h
    have hlocated : ∀ x y, (addObstacle m (gridify p)).1.obstacleMap x y ≠ m.obstacleMap x y →
        InMapSquare p ∧ InCell p x y := by
      intro x y hne
      obtain ⟨hnear, hunknown, rfl, rfl⟩ := hchanges.mp hne
      rw [gridify_eq_nearestCell hnear] at hunknown
      have hsquare := h.resolve_right fun h => h.elim (fun h => h hnear) hunknown
      exact ⟨hsquare, inCell_gridify hsquare⟩
    refine ⟨inGrid_accessed p, hlocated, fun houtside => ?_⟩
    refine funext fun x => funext fun y => by_contra fun hne => ?_
    exact houtside (hlocated x y hne).1

/-- A point a quarter to the left of the map is recorded in the first cell of its row. -/
theorem not_placed_leftOfMap : ¬ Placed (start ⟨0, 0⟩).mapper ⟨-(33 / 4), 0⟩ := by
  intro h
  have hnear : NearMap ⟨-(33 / 4), 0⟩ := by
    norm_num [NearMap, interval, mapSize, offsetX, offsetY, gridNum]
  have hchanges := (addObstacle_changes_iff (m := (start ⟨0, 0⟩).mapper) (gridify_ne _).1
    (gridify_ne _).2).mpr ⟨(inGrid_gridify_iff _).mpr hnear, Nat.not_lt_zero _, rfl, rfl⟩
  have hleft := (h.located _ _ hchanges).1.1.1
  norm_num [offsetX] at hleft

end S3RES.Mapping
