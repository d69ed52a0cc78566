import Mathlib

/-!
# The clock of the voters

`tas_lib/tas_time.c`, as compiled for x86_64, and the conversion of its result. Times are
readings of the cycle counter. The floats of the timer computation are read as exact rationals,
`long` conversion as truncation.
-/

namespace S3RES

/-- `CPU_MHZ`. -/
def cpuMhz : ℚ := 2301

/-- Elapsed microseconds between two readings of the counter. -/
def diffTime (current last : ℕ) : ℚ :=
  if current > last then ((current - last : ℕ) : ℚ) / cpuMhz else 0

/-- Conversion to an integer type. -/
def truncate (q : ℚ) : ℤ := if 0 ≤ q then ⌊q⌋ else ⌈q⌉

theorem truncate_nonneg_iff {t : ℚ} : 0 ≤ truncate t ↔ -1 < t := by
  rw [truncate]
  split
  · rename_i hnonneg
    exact iff_of_true (Int.floor_nonneg.mpr hnonneg) (by linarith)
  · have hceil := Int.lt_ceil (a := t) (z := -1)
    push_cast at hceil
    rw [← hceil]
    omega

theorem truncate_le_iff {t : ℚ} (n : ℕ) : truncate t ≤ n ↔ t < n + 1 := by
  rw [truncate]
  split
  · have hfloor := Int.floor_lt (a := t) (z := n + 1)
    push_cast at hfloor
    rw [← hfloor]
    omega
  · rename_i hneg
    have hceil : ⌈t⌉ ≤ 0 := Int.ceil_le.mpr (by push_cast; linarith)
    have hn : (0 : ℚ) ≤ n := Nat.cast_nonneg n
    exact iff_of_true (by omega) (by linarith)

/-- A later start leaves less elapsed time. -/
theorem diffTime_le_diffTime {now last last' : ℕ} (h : last ≤ last') :
    diffTime now last' ≤ diffTime now last := by
  have hmhz : (0 : ℚ) < cpuMhz := by norm_num [cpuMhz]
  simp only [diffTime]
  split_ifs with h₁ h₂
  · gcongr
  · omega
  · positivity
  · exact le_rfl

end S3RES
