import S3RES.Voter.Clock

/-!
# The cycle counter on ARM

On ARM the timestamps are readings of a counter of 32 bits, kept in a `timestamp_t` of 64. When
the counter has wrapped, `diff_time` adds `UINT_MAX` instead of 2 ^ 32, and it takes two equal
readings for a wrap. `CPU_MHZ` is a parameter; its quotients are read as exact rationals.

`measured_iff`: the elapsed time is right exactly when some cycle has passed and the counter has
not wrapped. `timely_iff`: a timeout can be seen too early exactly when no cycle has passed.
-/

namespace S3RES

/-- `UINT_MAX`. -/
def uintMax : BitVec 64 := 4294967295

/-- `generate_timestamp` on ARM, with the contents of the registers it reads: the access
permission, which counters count, and the cycle counter. -/
def generateTimestamp (pmuseren pmcntenset pmccntr : BitVec 32) : BitVec 64 :=
  if pmuseren &&& 1 ≠ 0 then
    if pmcntenset &&& 0x80000000 ≠ 0 then pmccntr.setWidth 64 else 0
  else 0

/-- `diff_time` on ARM. -/
def diffTimeArm (current last : BitVec 64) (mhz : ℚ) : ℚ :=
  if current > last then ((current - last).toNat : ℚ) / mhz
  else ((uintMax - last + current).toNat : ℚ) / mhz

/-- `remaining`, as the voters compute it before a `select`. -/
def remainingTime (votingTimeout : ℤ) (current last : BitVec 64) (mhz : ℚ) : ℤ :=
  truncate (votingTimeout - diffTimeArm current last mhz)

/-- A timestamp while the counter counts and may be read. -/
def timestamp (counter : BitVec 32) : BitVec 64 := generateTimestamp 1 0x80000000 counter

/-- When the counter was `last` and `d` cycles have passed since, the elapsed time is that of `d`
cycles, and a timeout that is seen has happened. -/
structure Measured (mhz : ℚ) (last d : BitVec 32) : Prop where
  elapsed : diffTimeArm (timestamp (last + d)) (timestamp last) mhz = d.toNat / mhz
  timely : ∀ votingTimeout : ℤ,
    remainingTime votingTimeout (timestamp (last + d)) (timestamp last) mhz ≤ 0 →
      truncate (votingTimeout - d.toNat / mhz) ≤ 0

variable {mhz : ℚ} {last d : BitVec 32}

theorem toNat_timestamp (counter : BitVec 32) : (timestamp counter).toNat = counter.toNat := by
  rw [timestamp, generateTimestamp, if_pos (by decide), if_pos (by decide)]
  exact BitVec.toNat_setWidth_of_le (by decide)

/-- The cycles that `diff_time` counts: one less when the counter has wrapped, and `UINT_MAX`
when none has passed. -/
def counted (last d : BitVec 32) : ℕ :=
  if d.toNat = 0 then 4294967295
  else if last.toNat + d.toNat < 2 ^ 32 then d.toNat
  else d.toNat - 1

theorem diffTimeArm_timestamp (mhz : ℚ) (last d : BitVec 32) :
    diffTimeArm (timestamp (last + d)) (timestamp last) mhz = counted last d / mhz := by
  have hlast := last.isLt
  have hd := d.isLt
  have hnow : (timestamp (last + d)).toNat = (last.toNat + d.toNat) % 2 ^ 32 := by
    rw [toNat_timestamp, BitVec.toNat_add]
  have hstart := toNat_timestamp last
  have hmax : uintMax.toNat = 4294967295 := rfl
  rw [diffTimeArm]
  split
  · -- some cycle has passed without a wrap
    rename_i hlater
    have hlater : (timestamp last).toNat < (timestamp (last + d)).toNat := hlater
    refine congrArg (fun n : ℕ => (n : ℚ) / mhz) ?_
    rw [BitVec.toNat_sub, hnow, hstart, counted]
    rw [hnow, hstart] at hlater
    split_ifs <;> omega
  · -- a wrap, or no cycle at all
    rename_i hlater
    have hlater : ¬ (timestamp last).toNat < (timestamp (last + d)).toNat := hlater
    refine congrArg (fun n : ℕ => (n : ℚ) / mhz) ?_
    rw [BitVec.toNat_add, BitVec.toNat_sub, hnow, hstart, hmax, counted]
    rw [hnow, hstart] at hlater
    split_ifs <;> omega

/-- **Elapsed time.** It is measured right exactly when some cycle has passed and the counter has
not wrapped. -/
theorem measured_iff (hmhz : mhz ≠ 0) (last d : BitVec 32) :
    Measured mhz last d ↔ 0 < d.toNat ∧ last.toNat + d.toNat < 2 ^ 32 := by
  have hd := d.isLt
  have hcounted : counted last d = d.toNat ↔ 0 < d.toNat ∧ last.toNat + d.toNat < 2 ^ 32 := by
    rw [counted]
    split_ifs <;> omega
  have helapsed : diffTimeArm (timestamp (last + d)) (timestamp last) mhz = d.toNat / mhz ↔
      counted last d = d.toNat := by
    rw [diffTimeArm_timestamp, div_left_inj' hmhz, Nat.cast_inj]
  rw [← hcounted, ← helapsed]
  refine ⟨fun h => h.elapsed, fun h => ⟨h, fun votingTimeout hseen => ?_⟩⟩
  rw [remainingTime, h] at hseen
  exact hseen

theorem measured_shortRound : Measured 1000 4294960000 5000 :=
  (measured_iff (by norm_num) _ _).mpr (by decide)

/-- Two equal readings. -/
theorem not_measured_sameReading : ¬ Measured 1000 5 0 := by
  intro h
  have helapsed := h.elapsed
  rw [diffTimeArm_timestamp, show counted 5 0 = 4294967295 from rfl,
    show (0 : BitVec 32).toNat = 0 from rfl] at helapsed
  norm_num at helapsed

/-- **Timeouts.** A timeout may be seen too early exactly when no cycle has passed. -/
theorem timely_iff (hmhz : 0 < mhz) (last d : BitVec 32) :
    (∀ votingTimeout : ℤ,
      remainingTime votingTimeout (timestamp (last + d)) (timestamp last) mhz ≤ 0 →
        truncate (votingTimeout - d.toNat / mhz) ≤ 0) ↔ d.toNat ≠ 0 := by
  have hnonpos : ∀ t : ℚ, truncate t ≤ 0 ↔ t < 1 := by
    intro t
    have hle := truncate_le_iff (t := t) 0
    rwa [Nat.cast_zero, Nat.cast_zero, zero_add] at hle
  simp only [remainingTime, diffTimeArm_timestamp, hnonpos]
  constructor
  · intro h hzero
    -- a timeout of one microsecond
    have hseen := h 1
    rw [hzero, counted, if_pos hzero] at hseen
    have hlong : 0 < (4294967295 : ℕ) / mhz := by positivity
    have hone := hseen (by push_cast at hlong ⊢; linarith)
    norm_num at hone
  · intro hne votingTimeout hseen
    have hle : counted last d ≤ d.toNat := by
      rw [counted]
      split_ifs <;> omega
    have hquot : (counted last d : ℚ) / mhz ≤ d.toNat / mhz := by gcongr
    linarith

end S3RES
