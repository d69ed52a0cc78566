import S3RES.Controllers.ArtPot
import S3RES.Foundations.StepSystem

/-!
# What ArtPot commands

On exact reals a command stays in bounds whatever the ranger reports: the deltas are a mean of
pushes of at most `obstScale * (obstExtent + obstRadius)` and a pull of 1 (`Bounded`), so the speed
is at most `velScale` times that push (`drives_velCmd`).

`command` asks for waypoints also where there is no planner to ask: without a `WAY_REQ` pipe the
index is -1, and the first data that is read leads out of `pipes` (`stays_in_pipes_iff`).
-/

namespace S3RES.ArtPot

open Loop StepSystem

/-! ### Bounds of the command -/

/-- The functions of `math.h` on exact reals. -/
noncomputable def realLibm : Libm ℝ where
  sqrt := Real.sqrt
  atan2 y x := Complex.arg ⟨x, y⟩
  cos := Real.cos
  sin := Real.sin
  pi := Real.pi

/-- The largest push. -/
def maxPush : ℚ := obstScale * (obstExtent + obstRadius)

/-- The deltas as a vector of the plane. -/
def Deltas.toPlane (d : Deltas ℝ) : ℂ := ⟨d.x, d.y⟩

/-- The deltas are a sum of one pull and of pushes, as many as were counted. -/
structure Bounded (d : Deltas ℝ) : Prop where
  factors : 1 ≤ d.factors
  norm_le : ‖d.toPlane‖ ≤ maxPush * d.factors

theorem sqrt_eq_norm (x y : ℝ) : √(x ^ 2 + y ^ 2) = ‖(⟨x, y⟩ : ℂ)‖ :=
  (Complex.norm_eq_sqrt_sq_add_sq (⟨x, y⟩ : ℂ)).symm

theorem norm_cos_sin (r theta : ℝ) :
    ‖(⟨r * Real.cos theta, r * Real.sin theta⟩ : ℂ)‖ = |r| := by
  rw [Complex.norm_eq_sqrt_sq_add_sq, ← Real.sqrt_sq_eq_abs]
  congr 1
  linear_combination r ^ 2 * Real.cos_sq_add_sin_sq theta

/-- Away from the goal it pulls with its whole strength. -/
theorem bounded_pull {dist : ℝ} (hdist : dist > distEpsilon) (theta : ℝ) :
    Bounded (pull realLibm dist theta) := by
  have hfar : (3 / 10 : ℝ) < dist := by simpa [distEpsilon] using hdist
  have hradius : ¬ dist < goalRadius := by
    simp only [goalRadius, Rat.cast_zero]
    linarith
  have hextent : ¬ ((goalRadius : ℝ) ≤ dist ∧ dist ≤ goalExtent + goalRadius) := by
    simp only [goalRadius, goalExtent]
    push_cast
    intro h
    linarith [h.2]
  rw [pull, if_neg hradius, if_neg hextent]
  refine ⟨le_rfl, ?_⟩
  change ‖(⟨goalScale * Real.cos theta, goalScale * Real.sin theta⟩ : ℂ)‖ ≤ _
  rw [norm_cos_sin]
  norm_num [goalScale, maxPush, obstScale, obstExtent, obstRadius]

/-- A push adds at most `maxPush` and counts. -/
theorem Bounded.push {d : Deltas ℝ} (h : Bounded d) (ranges : Fin rangerCount → ℝ)
    (i : Fin rangerCount) : Bounded (push realLibm ranges d i) := by
  simp only [ArtPot.push]
  set dist := realLibm.sqrt _
  set theta := realLibm.atan2 _ _
  split
  · rename_i hnear
    have hnonneg : 0 ≤ dist := Real.sqrt_nonneg _
    have hstrength : |-(obstScale : ℝ) * (obstExtent + obstRadius - dist)| ≤ maxPush := by
      rw [abs_le]
      simp only [maxPush, obstScale, obstExtent, obstRadius] at hnear ⊢
      push_cast at hnear ⊢
      constructor <;> linarith
    refine ⟨h.factors.trans (Nat.le_succ _), ?_⟩
    have hsum : (⟨d.x + -obstScale * (obstExtent + obstRadius - dist) * Real.cos theta,
          d.y + -obstScale * (obstExtent + obstRadius - dist) * Real.sin theta⟩ : ℂ) =
        d.toPlane + ⟨-obstScale * (obstExtent + obstRadius - dist) * Real.cos theta,
          -obstScale * (obstExtent + obstRadius - dist) * Real.sin theta⟩ := rfl
    calc ‖(⟨d.x + -obstScale * (obstExtent + obstRadius - dist) * Real.cos theta,
          d.y + -obstScale * (obstExtent + obstRadius - dist) * Real.sin theta⟩ : ℂ)‖
        ≤ ‖d.toPlane‖ + |-(obstScale : ℝ) * (obstExtent + obstRadius - dist)| := by
          rw [hsum, ← norm_cos_sin _ theta]
          exact norm_add_le _ _
      _ ≤ maxPush * d.factors + maxPush := add_le_add h.norm_le hstrength
      _ = maxPush * (d.factors + 1 : ℕ) := by push_cast; ring
  · exact h

theorem bounded_deltas {dist : ℝ} (hdist : dist > distEpsilon) (theta : ℝ)
    (ranges : Fin rangerCount → ℝ) : Bounded (deltas realLibm ranges dist theta) := by
  rw [deltas]
  have hfold : ∀ (l : List (Fin rangerCount)) d, Bounded d →
      Bounded (l.foldl (push realLibm ranges) d) := by
    intro l
    induction l with
    | nil => exact fun _ hd => hd
    | cons i l ih => exact fun d hd => ih _ (hd.push ranges i)
  exact hfold _ _ (bounded_pull hdist theta)

/-- The mean is no greater than the largest push. -/
theorem Bounded.mean_le {d : Deltas ℝ} (h : Bounded d) :
    √((d.x / d.factors) ^ 2 + (d.y / d.factors) ^ 2) ≤ maxPush := by
  have hpos : (0 : ℝ) < d.factors := by exact_mod_cast h.factors
  have hmean : (d.x / d.factors) ^ 2 + (d.y / d.factors) ^ 2 =
      (d.x ^ 2 + d.y ^ 2) / (d.factors : ℝ) ^ 2 := by
    rw [div_pow, div_pow, add_div]
  rw [hmean, Real.sqrt_div (by positivity), Real.sqrt_sq hpos.le, sqrt_eq_norm,
    div_le_iff₀ hpos]
  exact h.norm_le

/-- The bounds of a velocity: it goes forward, not too fast, and only if mostly pointed there. -/
structure Drives (v w : ℝ) : Prop where
  nonneg : 0 ≤ v
  speed_le : v ≤ velScale * maxPush
  turn_le : |w| ≤ velScale * Real.pi
  pointed : v ≠ 0 → |w| < velScale

theorem drives_velCmd (ranges : Fin rangerCount → ℝ) (dist theta : ℝ) :
    Drives (velCmd realLibm ranges dist theta).1 (velCmd realLibm ranges dist theta).2 := by
  have hscale : (0 : ℝ) < velScale := by norm_num [velScale]
  have hpush : (0 : ℝ) ≤ maxPush := by norm_num [maxPush, obstScale, obstExtent, obstRadius]
  rw [velCmd]
  split
  · rename_i hdist
    have hbounded := bounded_deltas hdist theta ranges
    set d := deltas realLibm ranges dist theta
    have hspeed : realLibm.sqrt ((d.x / d.factors) ^ 2 + (d.y / d.factors) ^ 2) ≤ maxPush :=
      hbounded.mean_le
    have hturn : |realLibm.atan2 (d.y / d.factors) (d.x / d.factors)| ≤ Real.pi :=
      Complex.abs_arg_le_pi _
    have hscaled : ∀ t : ℝ, |velScale * t| = velScale * |t| := fun t => by
      rw [abs_mul, abs_of_pos hscale]
    refine ⟨?_, ?_, ?_, fun hne => ?_⟩
    · dsimp only
      split
      · exact mul_nonneg hscale.le (Real.sqrt_nonneg _)
      · exact le_rfl
    · dsimp only
      split
      · exact mul_le_mul_of_nonneg_left hspeed hscale.le
      · exact mul_nonneg hscale.le hpush
    · rw [hscaled]
      exact mul_le_mul_of_nonneg_left hturn hscale.le
    · have hpointed : |realLibm.atan2 (d.y / d.factors) (d.x / d.factors)| < 1 := by
        by_contra hnot
        exact hne (if_neg hnot)
      rw [hscaled]
      exact mul_lt_of_lt_one_right hscale hpointed
  · refine ⟨le_rfl, mul_nonneg hscale.le hpush, ?_, fun hne => absurd rfl hne⟩
    rw [abs_zero]
    exact mul_nonneg hscale.le Real.pi_pos.le

/-- There is one command, and it carries the number of the data. -/
theorem movCmds_takeData {N : Type*} [Field N] [LinearOrder N] (m : Libm N) {pipes : ℤ → TypedPipe}
    {ix : Indexes} (hout : Sends .movCmd (pipes ix.out)) (a : Globals N) (msg : RangePoseData N) :
    ∃ ranges dist theta, (takeData m pipes ix a msg).2.movCmds = [⟨msg.seqCount,
      ![(velCmd m ranges dist theta).1, (velCmd m ranges dist theta).2]⟩] := by
  simp only [takeData, command]
  set next := (tryNext m (copyRanger a msg)).1 with hnext
  have hseq : ∀ b, (request pipes ix b next).1.seqCount = msg.seqCount := by
    intro b
    rw [request, hnext, tryNext]
    split_ifs <;> rfl
  refine ⟨next.ranges, (toGoal m next).1, (toGoal m next).2, ?_⟩
  rw [commSendMoveCommand, sendOn_of_sends hout, hseq]

/-! ### The elements of `pipes` -/

variable {N : Type*} [Field N] [LinearOrder N] {m : Libm N} {pipes : ℤ → TypedPipe} {ix : Indexes}
  {pipeCount : ℕ}

/-- What an iteration of `enterLoop` reads. -/
inductive Event (N : Type*)
  | waypoints (msg : WayRes N)
  | data (msg : RangePoseData N)

/-- The iterations of `enterLoop`. Waypoints are only read where there are four pipes. -/
def step (m : Libm N) (pipes : ℤ → TypedPipe) (ix : Indexes) (pipeCount : ℕ) (a : Globals N) :
    Event N → Option (Globals N)
  | .waypoints msg => if pipeCount = pipeCountMax then some (takeWaypoints a msg) else none
  | .data msg => some (takeData m pipes ix a msg).1

/-- The elements of `pipes` that are looked at before `select`. -/
def selected (ix : Indexes) (pipeCount : ℕ) : List ℤ :=
  if pipeCount = pipeCountMax then [ix.data, ix.wayRes] else [ix.data]

/-- The elements of `pipes` that an iteration looks at. -/
def accessed (m : Libm N) (pipes : ℤ → TypedPipe) (ix : Indexes) (pipeCount : ℕ) (a : Globals N) :
    Event N → List ℤ
  | .waypoints _ => selected ix pipeCount
  | .data msg => selected ix pipeCount ++ (takeData m pipes ix a msg).2.accessed

/-- The index is one of the array. -/
def InBounds (i : ℤ) : Prop := 0 ≤ i ∧ i < pipeCountMax

instance (i : ℤ) : Decidable (InBounds i) := inferInstanceAs (Decidable (_ ∧ _))

/-- There is a pipe of the type. -/
def HasPipe (pipes : ℤ → TypedPipe) (pipeCount : ℕ) (type : CommMessage) : Prop :=
  ∃ q < pipeCount, (pipes q).type = type

/-- An index that the loop of `setPipeIndexes` sets to the pipes of one type: it is that of such a
pipe, or what it was if there is none. -/
theorem index_cases (pipeCount : ℕ) (π : Indexes → ℤ) (type : CommMessage)
    (hset : ∀ i ix, π (setIndex pipes i ix) = if (pipes i).type = type then (i : ℤ) else π ix)
    (ix : Indexes) :
    (¬ HasPipe pipes pipeCount type ∧ π (loop (setIndex pipes) pipeCount ix) = π ix) ∨
      ∃ q < pipeCount, (pipes q).type = type ∧ π (loop (setIndex pipes) pipeCount ix) = q := by
  refine loop_induction (fun k t => (¬ HasPipe pipes k type ∧ π t = π ix) ∨
    ∃ q < k, (pipes q).type = type ∧ π t = q) (.inl ⟨fun h => ?_, rfl⟩) fun k _ t ht => ?_
  · obtain ⟨q, hq, -⟩ := h
    exact Nat.not_lt_zero q hq
  · rw [hset]
    by_cases htype : (pipes k).type = type
    · rw [if_pos htype]
      exact .inr ⟨k, k.lt_succ_self, htype, rfl⟩
    · rw [if_neg htype]
      refine ht.imp (fun h => ⟨fun hpipe => ?_, h.2⟩) fun ⟨q, hq, hrest⟩ =>
        ⟨q, hq.trans k.lt_succ_self, hrest⟩
      obtain ⟨q, hq, hqtype⟩ := hpipe
      rcases Nat.lt_succ_iff_lt_or_eq.mp hq with hq | rfl
      · exact h.1 ⟨q, hq, hqtype⟩
      · exact htype hqtype

/-- The four indexes. -/
theorem setIndex_data (i : ℕ) (ix : Indexes) :
    (setIndex pipes i ix).data = if (pipes i).type = .rangePoseData then (i : ℤ) else ix.data := by
  rw [setIndex]
  cases (pipes i).type <;> rfl

theorem setIndex_out (i : ℕ) (ix : Indexes) :
    (setIndex pipes i ix).out = if (pipes i).type = .movCmd then (i : ℤ) else ix.out := by
  rw [setIndex]
  cases (pipes i).type <;> rfl

theorem setIndex_wayReq (i : ℕ) (ix : Indexes) :
    (setIndex pipes i ix).wayReq = if (pipes i).type = .wayReq then (i : ℤ) else ix.wayReq := by
  rw [setIndex]
  cases (pipes i).type <;> rfl

theorem setIndex_wayRes (i : ℕ) (ix : Indexes) :
    (setIndex pipes i ix).wayRes = if (pipes i).type = .wayRes then (i : ℤ) else ix.wayRes := by
  rw [setIndex]
  cases (pipes i).type <;> rfl

/-- The elements that `command` looks at. -/
theorem accessed_takeData (a : Globals N) (msg : RangePoseData N) :
    (takeData m pipes ix a msg).2.accessed =
      if a.wayPending then [ix.out] else [ix.wayReq, ix.out] := by
  have hpending : (tryNext m (copyRanger a msg)).1.wayPending = a.wayPending := by
    rw [tryNext]
    split_ifs <;> rfl
  simp only [takeData, command, request, hpending]
  split_ifs <;> rfl

/-- The globals that are indexes, zero from the start. -/
def noIndexes : Indexes := ⟨0, 0, 0, 0⟩

/-- **Inside of `pipes`.** With at most four pipes, no run leads out of the array if and only if
there is a `WAY_REQ` pipe, and with four pipes a `WAY_RES` pipe. -/
theorem stays_in_pipes_iff (m : Libm N) (hcount : pipeCount ≤ pipeCountMax) :
    (∀ as, AllSteps (step m pipes (setPipeIndexes pipes pipeCount noIndexes) pipeCount)
      (fun a e => ∀ i ∈ accessed m pipes (setPipeIndexes pipes pipeCount noIndexes) pipeCount a e,
        InBounds i) as start) ↔
      HasPipe pipes pipeCount .wayReq ∧ (pipeCount = pipeCountMax → HasPipe pipes pipeCount .wayRes) := by
  set ix := setPipeIndexes pipes pipeCount noIndexes with hix
  have hinside : ∀ q < pipeCount, InBounds (q : ℤ) := fun q hq => by
    rw [InBounds]
    omega
  have hzero : InBounds 0 := by decide
  have houtside : ¬ InBounds (-1) := by decide
  have hdata : InBounds ix.data := by
    rcases index_cases pipeCount (·.data) .rangePoseData setIndex_data
      { noIndexes with wayReq := -1, wayRes := -1 } with ⟨-, h⟩ | ⟨q, hq, -, h⟩
    · exact h ▸ hzero
    · exact h ▸ hinside q hq
  have hout : InBounds ix.out := by
    rcases index_cases pipeCount (·.out) .movCmd setIndex_out
      { noIndexes with wayReq := -1, wayRes := -1 } with ⟨-, h⟩ | ⟨q, hq, -, h⟩
    · exact h ▸ hzero
    · exact h ▸ hinside q hq
  have hreq : InBounds ix.wayReq ↔ HasPipe pipes pipeCount .wayReq := by
    rcases index_cases pipeCount (·.wayReq) .wayReq setIndex_wayReq
      { noIndexes with wayReq := -1, wayRes := -1 } with ⟨hnone, h⟩ | ⟨q, hq, htype, h⟩
    · exact iff_of_false (h ▸ houtside) hnone
    · exact iff_of_true (h ▸ hinside q hq) ⟨q, hq, htype⟩
  have hres : InBounds ix.wayRes ↔ HasPipe pipes pipeCount .wayRes := by
    rcases index_cases pipeCount (·.wayRes) .wayRes setIndex_wayRes
      { noIndexes with wayReq := -1, wayRes := -1 } with ⟨hnone, h⟩ | ⟨q, hq, htype, h⟩
    · exact iff_of_false (h ▸ houtside) hnone
    · exact iff_of_true (h ▸ hinside q hq) ⟨q, hq, htype⟩
  rw [← hreq, ← hres]
  constructor
  · intro h
    -- the first data makes `command` ask for waypoints
    have hfirst := (h [.data ⟨0, 0, 0⟩]).1
    simp only [accessed, accessed_takeData] at hfirst
    refine ⟨hfirst _ (by simp [start]), fun hfour => hfirst _ (by simp [selected, hfour])⟩
  · rintro ⟨hreq, hres⟩ as
    have hselected : ∀ i ∈ selected ix pipeCount, InBounds i := by
      rw [selected]
      split_ifs with hfour
      · exact List.forall_mem_cons.mpr ⟨hdata, List.forall_mem_singleton.mpr (hres hfour)⟩
      · exact List.forall_mem_singleton.mpr hdata
    have hall : ∀ a e, ∀ i ∈ accessed m pipes ix pipeCount a e, InBounds i := by
      intro a e
      cases e with
      | waypoints => exact hselected
      | data msg =>
        rw [accessed, accessed_takeData, List.forall_mem_append]
        refine ⟨hselected, ?_⟩
        split_ifs
        · exact List.forall_mem_singleton.mpr hout
        · exact List.forall_mem_cons.mpr ⟨hreq, List.forall_mem_singleton.mpr hout⟩
    exact (allSteps_true as start).imp fun a e _ => hall a e

/-- The pipes of an ArtPot without a planner. -/
def alone (i : ℤ) : TypedPipe := if i = 0 then ⟨.rangePoseData, 3, 0⟩ else ⟨.movCmd, 0, 4⟩

/-- Some run of it leads out of the array. -/
theorem not_inBounds_alone : ∃ as,
    ¬ AllSteps (step realLibm alone (setPipeIndexes alone 2 noIndexes) 2)
      (fun a e => ∀ i ∈ accessed realLibm alone (setPipeIndexes alone 2 noIndexes) 2 a e,
        InBounds i) as start := by
  refine not_forall.mp fun h => ?_
  obtain ⟨q, hq, htype⟩ := ((stays_in_pipes_iff realLibm (by decide)).mp h).1
  interval_cases q <;> revert htype <;> decide

end S3RES.ArtPot
