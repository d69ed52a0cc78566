import S3RES.Voter.Clock

/-!
# The grid

The map is a square of `GRID_NUM` by `GRID_NUM` cells. `gridify` finds the cell of a point,
`degridify` the centre of a cell; coordinates are read as exact rationals.
-/

namespace S3RES.Mapping

/-- `GRID_NUM`, `MAP_SIZE`, `OFFSET_X` and `OFFSET_Y`. -/
def gridNum : ℕ := 48

def mapSize : ℚ := 16

def offsetX : ℚ := 8

def offsetY : ℚ := 8

/-- `struct point_i`. -/
structure PointI where
  x : ℤ
  y : ℤ
  deriving DecidableEq

/-- `struct point_d`. -/
structure PointD where
  x : ℚ
  y : ℚ

/-- The width of a cell. -/
def interval : ℚ := mapSize / gridNum

/-- `gridify`. The edge of the map counts as inside. -/
def gridify (p : PointD) : PointI :=
  let x := truncate ((p.x + offsetX) / interval)
  let y := truncate ((p.y + offsetY) / interval)
  ⟨if x = gridNum then x - 1 else x, if y = gridNum then y - 1 else y⟩

/-- `degridify`: the centre of a cell. -/
def degridify (x y : ℤ) : PointD :=
  ⟨x * interval + interval / 2 - offsetX, y * interval + interval / 2 - offsetY⟩

/-- The cell is on the map. -/
def InGrid (x y : ℤ) : Prop := 0 ≤ x ∧ x < gridNum ∧ 0 ≤ y ∧ y < gridNum

instance (x y : ℤ) : Decidable (InGrid x y) := inferInstanceAs (Decidable (_ ∧ _))

/-- The cells around the cell are on the map. -/
def Inner (x y : ℤ) : Prop := InGrid (x - 1) (y - 1) ∧ InGrid (x + 1) (y + 1)

instance (x y : ℤ) : Decidable (Inner x y) := inferInstanceAs (Decidable (_ ∧ _))

/-- `gridify` gives no cell just behind the edge. -/
theorem gridify_ne (p : PointD) : (gridify p).x ≠ gridNum ∧ (gridify p).y ≠ gridNum := by
  simp only [gridify]
  constructor
  · split <;> omega
  · split <;> omega

/-- The centre of a cell is in the cell. -/
theorem gridify_degridify {x y : ℤ} (h : InGrid x y) : gridify (degridify x y) = ⟨x, y⟩ := by
  obtain ⟨hx, hx', hy, hy'⟩ := h
  have hcentre : ∀ {k : ℤ}, 0 ≤ k → truncate (k + 1 / 2) = k := by
    intro k hk
    have hnonneg : (0 : ℚ) ≤ k + 1 / 2 := by positivity
    rw [truncate, if_pos hnonneg, Int.floor_eq_iff]
    constructor <;> linarith
  have hscaled : ∀ (k : ℤ), ((k : ℚ) * interval + interval / 2 - 8 + 8) / interval = k + 1 / 2 := by
    intro k
    simp only [interval, mapSize, gridNum]
    field_simp
    ring
  simp only [gridify, degridify, offsetX, offsetY, hscaled, hcentre hx, hcentre hy, if_neg hx'.ne,
    if_neg hy'.ne]

end S3RES.Mapping
