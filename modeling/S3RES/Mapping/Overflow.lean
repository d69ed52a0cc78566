import S3RES.CommTypes.MapUpdate
import S3RES.Mapping.Obstacles

/-!
# Room in the message of Mapper

The arrays for the obstacles of a message have `MAX_OBSTACLES` places, less than there are cells.
`addObstacle` puts a cell into the message when its count comes to exceed `OBS_THRES`, and when
all are to be sent again, the cells that are known are put in once more.

`no_overflow_iff`: in a run of scans and acknowledgements no message overflows exactly when
before every scan that sends all again there is room for what is known and twice what comes to be
known.
-/

namespace S3RES.Mapping

open Loop StepSystem

/-! ### Mapper on its own -/

/-- What Mapper reads. -/
inductive Mapper.Input
  | scan (pose : PointD) (points : Fin rangeCount → PointD)
  | ack (ack : Ack)

/-- A round of `enterLoop`. -/
def Mapper.step (m : Mapper) : Mapper.Input → Option Mapper
  | .scan pose points => some (updateMap m pose points)
  | .ack ack => some (m.takeAck ack)

/-- Mapper as `main` starts it. -/
def Mapper.boot : Mapper := ⟨fun _ _ => 0, ⟨⟨0, 0⟩, []⟩, false⟩

/-- The message as `commSendMapUpdate` gets it: words of 32 bits, and arrays of bytes. -/
def Update.toMessage (u : Update) : MapUpdate where
  poseX := .ofInt 32 u.pose.x
  poseY := .ofInt 32 u.pose.y
  obsCount := .ofNat 32 u.obstacles.length
  obsX i := (u.obstacles.getD i (0, 0)).1
  obsY i := (u.obstacles.getD i (0, 0)).2

/-- A scan leaves at most `MAX_OBSTACLES` obstacles in the message (while it is being filled the
number only grows), and what is written of it has as many pairs as it announces. -/
def NoOverflow (pipe : TypedPipe) (m : Mapper) : Mapper.Input → Prop
  | .scan pose points =>
    let u := (updateMap m pose points).sendMsg
    let written := commSendMapUpdate pipe u.toMessage
    u.obstacles.length ≤ maxObstacles ∧
      (written = [] ∨ written.length = headerSize + 2 * (announced written).toInt.toNat)
  | .ack _ => True

/-! ### What is known -/

/-- The cells of the map. -/
def cells : Finset (ℕ × ℕ) := Finset.range gridNum ×ˢ Finset.range gridNum

/-- The number of obstacles that Mapper knows. -/
def Mapper.known (m : Mapper) : ℕ :=
  (cells.filter fun c => obsThres < m.obstacleMap c.1 c.2).card

/-- The number of points in a cell. -/
def hits (points : List PointD) (c : ℕ × ℕ) : ℕ :=
  points.countP fun p => gridify p = ⟨c.1, c.2⟩

/-- The number of cells whose count comes to exceed the threshold. -/
def Mapper.crossing (m : Mapper) (points : List PointD) : ℕ :=
  (cells.filter fun c => m.obstacleMap c.1 c.2 ≤ obsThres ∧
    obsThres < m.obstacleMap c.1 c.2 + hits points c).card

/-- If all obstacles are to be sent again, there is room for them: for what is known, and twice
for what comes to be known. -/
def RoomToResend (m : Mapper) : Mapper.Input → Prop
  | .scan _ points => m.resendingAll = true →
    m.known + 2 * m.crossing (List.ofFn points) ≤ maxObstacles
  | .ack _ => True

variable {m : Mapper}

instance (x y : ℤ) : Decidable (m.Knows x y) := inferInstanceAs (Decidable (_ < _))

theorem mem_cells {c : ℕ × ℕ} : c ∈ cells ↔ c.1 < gridNum ∧ c.2 < gridNum := by
  rw [cells, Finset.mem_product, Finset.mem_range, Finset.mem_range]

/-- Only the counts matter for what is known. -/
theorem known_congr {m' : Mapper} (h : m'.obstacleMap = m.obstacleMap) : m'.known = m.known := by
  rw [Mapper.known, Mapper.known, h]

/-- What `addObstacle` does: nothing, where there is no cell or it is known, or it counts. -/
theorem addObstacle_cases (m : Mapper) (p : PointD) :
    ((addObstacle m (gridify p)).1 = m ∧
      ∀ c ∈ cells, gridify p = ⟨c.1, c.2⟩ → m.Knows c.1 c.2) ∨
    ∃ c ∈ cells, gridify p = ⟨c.1, c.2⟩ ∧ ¬ m.Knows c.1 c.2 ∧
      (addObstacle m (gridify p)).1 =
        if obsThres < m.obstacleMap c.1 c.2 + 1 then (m.increment c.1 c.2).push c.1 c.2
        else m.increment c.1 c.2 := by
  obtain ⟨hx, hy⟩ := gridify_ne p
  generalize gridify p = obs at hx hy ⊢
  by_cases hout : obs.x < 0 ∨ obs.x > gridNum ∨ obs.y < 0 ∨ obs.y > gridNum
  · -- erroneous, and no cell is meant
    refine .inl ⟨by rw [addObstacle, if_pos hout], fun c hc hobs => ?_⟩
    obtain ⟨hc₁, hc₂⟩ := mem_cells.mp hc
    rw [hobs] at hout
    dsimp only at hout
    omega
  · obtain ⟨k, hk⟩ := Int.eq_ofNat_of_zero_le (show 0 ≤ obs.x by omega)
    obtain ⟨l, hl⟩ := Int.eq_ofNat_of_zero_le (show 0 ≤ obs.y by omega)
    have hobs : obs = ⟨(k : ℤ), (l : ℤ)⟩ := by rw [← hk, ← hl]
    by_cases hknown : m.obstacleMap obs.x obs.y > obsThres
    · refine .inl ⟨by rw [addObstacle, if_neg hout, if_pos hknown], fun c _ hc => ?_⟩
      rw [hc] at hknown
      exact hknown
    · have hcount : (m.increment obs.x obs.y).obstacleMap obs.x obs.y =
          m.obstacleMap obs.x obs.y + 1 := by simp [obstacleMap_increment]
      refine .inr ⟨(k, l), mem_cells.mpr ⟨by omega, by omega⟩, hobs, ?_, ?_⟩
      · rw [hobs] at hknown
        exact hknown
      · rw [addObstacle, if_neg hout, if_neg hknown]
        simp only [gt_iff_lt, hcount]
        rw [hobs]

/-- The counts after `addObstacle`. -/
theorem obstacleMap_addObstacle (m : Mapper) (p : PointD) {c : ℕ × ℕ} (hc : c ∈ cells) :
    (addObstacle m (gridify p)).1.obstacleMap c.1 c.2 =
      if gridify p = ⟨c.1, c.2⟩ ∧ ¬ m.Knows c.1 c.2 then m.obstacleMap c.1 c.2 + 1
      else m.obstacleMap c.1 c.2 := by
  rcases addObstacle_cases m p with ⟨heq, hknown⟩ | ⟨d, hd, hp, hunknown, heq⟩
  · rw [heq, if_neg fun h => h.2 (hknown c hc h.1)]
  · have hmap : (addObstacle m (gridify p)).1.obstacleMap =
        (m.increment d.1 d.2).obstacleMap := by
      rw [heq]
      split <;> rfl
    have hcell : (c.1 : ℤ) = d.1 ∧ (c.2 : ℤ) = d.2 ↔ d = c := by
      rw [Nat.cast_inj, Nat.cast_inj, Prod.ext_iff]
      exact and_congr eq_comm eq_comm
    have hpoint : gridify p = ⟨c.1, c.2⟩ ↔ d = c := by
      rw [hp, PointI.mk.injEq, ← hcell]
      exact and_congr eq_comm eq_comm
    rw [hmap, obstacleMap_increment]
    simp only [hcell, hpoint]
    by_cases hdc : d = c
    · rw [if_pos hdc, if_pos ⟨hdc, hdc ▸ hunknown⟩, hdc]
    · rw [if_neg hdc, if_neg fun h => hdc h.1]

/-- An obstacle goes into the message when it comes to be known. -/
theorem length_addObstacle (m : Mapper) (p : PointD) :
    (addObstacle m (gridify p)).1.sendMsg.obstacles.length + m.known =
      m.sendMsg.obstacles.length + (addObstacle m (gridify p)).1.known := by
  have hcounts := fun c hc => obstacleMap_addObstacle m p (c := c) hc
  rcases addObstacle_cases m p with ⟨heq, -⟩ | ⟨d, hd, hp, hunknown, heq⟩
  · rw [heq]
  · -- the other cells are known as before
    have hother : ∀ c ∈ cells, c ≠ d →
        (addObstacle m (gridify p)).1.obstacleMap c.1 c.2 = m.obstacleMap c.1 c.2 := by
      intro c hc hne
      rw [hcounts c hc, if_neg]
      rintro ⟨hpc, -⟩
      rw [hp, PointI.mk.injEq, Nat.cast_inj, Nat.cast_inj] at hpc
      exact hne (Prod.ext hpc.1.symm hpc.2.symm)
    have hthis : (addObstacle m (gridify p)).1.obstacleMap d.1 d.2 =
        m.obstacleMap d.1 d.2 + 1 := by
      rw [hcounts d hd, if_pos ⟨hp, hunknown⟩]
    by_cases hcross : obsThres < m.obstacleMap d.1 d.2 + 1
    · have hknown : (cells.filter fun c =>
          obsThres < (addObstacle m (gridify p)).1.obstacleMap c.1 c.2) =
          insert d (cells.filter fun c => obsThres < m.obstacleMap c.1 c.2) := by
        ext c
        rw [Finset.mem_insert, Finset.mem_filter, Finset.mem_filter]
        by_cases hcd : c = d
        · rw [hcd, hthis]
          exact iff_of_true ⟨hd, hcross⟩ (.inl rfl)
        · rw [or_iff_right hcd]
          exact and_congr_right fun hc => by rw [hother c hc hcd]
      rw [Mapper.known, Mapper.known, hknown, Finset.card_insert_of_notMem, heq, if_pos hcross]
      · simp only [Mapper.push, Mapper.increment, List.length_append, List.length_singleton]
        omega
      · exact fun h => hunknown (Finset.mem_filter.mp h).2
    · have hknown : (addObstacle m (gridify p)).1.known = m.known := by
        refine congrArg Finset.card (Finset.filter_congr fun c hc => ?_)
        by_cases hcd : c = d
        · rw [hcd, hthis]
          exact iff_of_false hcross hunknown
        · rw [hother c hc hcd]
      rw [hknown, heq, if_neg hcross]
      rfl

/-! ### A scan -/

/-- What is known after the points of a scan. -/
theorem knows_addObstacles (m : Mapper) (points : List PointD) {c : ℕ × ℕ} (hc : c ∈ cells) :
    (addObstacles m points).Knows c.1 c.2 ↔
      obsThres < m.obstacleMap c.1 c.2 + hits points c := by
  induction points generalizing m with
  | nil => rfl
  | cons p points ih =>
    have hhits : hits (p :: points) c =
        hits points c + if gridify p = ⟨c.1, c.2⟩ then 1 else 0 := by
      simp only [hits, List.countP_cons, decide_eq_true_eq]
    rw [show addObstacles m (p :: points) = addObstacles (addObstacle m (gridify p)).1 points
      from rfl, ih, obstacleMap_addObstacle m p hc, hhits]
    -- a cell that is known is not counted any more
    by_cases hp : gridify p = ⟨c.1, c.2⟩
    · by_cases hknown : m.Knows c.1 c.2
      · rw [if_neg fun h => h.2 hknown, if_pos hp]
        rw [Mapper.Knows] at hknown
        exact iff_of_true (by omega) (by omega)
      · rw [if_pos ⟨hp, hknown⟩, if_pos hp]
        exact Eq.to_iff (by congr 1; omega)
    · rw [if_neg fun h => hp h.1, if_neg hp, add_zero]

theorem length_addObstacles (m : Mapper) (points : List PointD) :
    (addObstacles m points).sendMsg.obstacles.length + m.known =
      m.sendMsg.obstacles.length + (addObstacles m points).known := by
  induction points generalizing m with
  | nil => rfl
  | cons p points ih =>
    have hfirst := length_addObstacle m p
    have hrest := ih (addObstacle m (gridify p)).1
    rw [show addObstacles m (p :: points) = addObstacles (addObstacle m (gridify p)).1 points
      from rfl]
    omega

/-- What is known after a scan: what was known, and what has come to be. -/
theorem known_addObstacles (m : Mapper) (points : List PointD) :
    (addObstacles m points).known = m.known + m.crossing points := by
  have hafter : (cells.filter fun c => obsThres < (addObstacles m points).obstacleMap c.1 c.2) =
      (cells.filter fun c => obsThres < m.obstacleMap c.1 c.2) ∪
        cells.filter fun c => m.obstacleMap c.1 c.2 ≤ obsThres ∧
          obsThres < m.obstacleMap c.1 c.2 + hits points c := by
    ext c
    rw [Finset.mem_union, Finset.mem_filter, Finset.mem_filter, Finset.mem_filter, ← and_or_left]
    refine and_congr_right fun hc => (knows_addObstacles m points hc).trans ?_
    omega
  rw [Mapper.known, hafter, Finset.card_union_of_disjoint, Mapper.known, Mapper.crossing]
  refine Finset.disjoint_filter.mpr fun c _ hknown hcrossing => ?_
  exact absurd hknown (not_lt.mpr hcrossing.1)

/-- Each point adds at most one obstacle to the message. -/
theorem length_addObstacles_le (m : Mapper) (points : List PointD) :
    (addObstacles m points).sendMsg.obstacles.length ≤
      m.sendMsg.obstacles.length + points.length := by
  induction points generalizing m with
  | nil => exact le_rfl
  | cons p points ih =>
    have hfirst : (addObstacle m (gridify p)).1.sendMsg.obstacles.length ≤
        m.sendMsg.obstacles.length + 1 := by
      rcases addObstacle_cases m p with ⟨heq, -⟩ | ⟨c, -, -, -, heq⟩
      · rw [heq]
        exact Nat.le_succ _
      · rw [heq]
        split
        · exact List.length_append.le
        · exact Nat.le_succ _
    have hrest := ih (addObstacle m (gridify p)).1
    rw [List.length_cons]
    exact hrest.trans (by omega)

/-- The loops that send all again put every cell that is known into the message. -/
theorem length_resendAll (m : Mapper) : (resendAll m).obstacleMap = m.obstacleMap ∧
    (resendAll m).sendMsg.obstacles.length = m.sendMsg.obstacles.length + m.known := by
  -- one cell adds one obstacle if it is known, and the counts stay
  have hcell : ∀ (i j : ℕ) (t : Mapper), t.obstacleMap = m.obstacleMap →
      (if t.obstacleMap i j > obsThres then t.push i j else t).obstacleMap = m.obstacleMap ∧
      (if t.obstacleMap i j > obsThres then t.push i j else t).sendMsg.obstacles.length =
        t.sendMsg.obstacles.length + if obsThres < m.obstacleMap i j then 1 else 0 := by
    intro i j t ht
    rw [ht]
    split
    · exact ⟨ht, List.length_append⟩
    · exact ⟨ht, rfl⟩
  have hknown : m.known = ∑ i ∈ Finset.range gridNum, ∑ j ∈ Finset.range gridNum,
      if obsThres < m.obstacleMap i j then 1 else 0 := by
    rw [Mapper.known, Finset.card_filter, cells, Finset.sum_product]
  rw [hknown, resendAll]
  refine loop_sum (fun t : Mapper => t.obstacleMap = m.obstacleMap)
    (fun t => t.sendMsg.obstacles.length)
    (fun i => ∑ j ∈ Finset.range gridNum, if obsThres < m.obstacleMap i j then 1 else 0) rfl ?_
  intro i _ t ht
  exact loop_sum (fun t : Mapper => t.obstacleMap = m.obstacleMap)
    (fun t => t.sendMsg.obstacles.length)
    (fun j => if obsThres < m.obstacleMap i j then 1 else 0) ht fun j _ t ht => hcell i j t ht

/-- What is known after a scan. -/
theorem knows_updateMap (m : Mapper) (pose : PointD) (points : Fin rangeCount → PointD)
    {c : ℕ × ℕ} (hc : c ∈ cells) : (updateMap m pose points).Knows c.1 c.2 ↔
      obsThres < m.obstacleMap c.1 c.2 + hits (List.ofFn points) c := by
  have hresend : ∀ t : Mapper, (resendIfAsked t).obstacleMap = t.obstacleMap := by
    intro t
    rw [resendIfAsked]
    split
    · exact (length_resendAll _).1
    · rfl
  have hmap : (updateMap m pose points).obstacleMap =
      (addObstacles { m with sendMsg := ⟨m.sendMsg.pose, []⟩ } (List.ofFn points)).obstacleMap :=
    hresend _
  rw [Mapper.Knows, hmap]
  exact knows_addObstacles _ _ hc

theorem resendingAll_addObstacles (m : Mapper) (points : List PointD) :
    (addObstacles m points).resendingAll = m.resendingAll := by
  induction points generalizing m with
  | nil => rfl
  | cons p points ih => exact (ih _).trans (resendingAll_addObstacle m (gridify p))

/-- What is in the message after a scan. -/
theorem length_updateMap (m : Mapper) (pose : PointD) (points : Fin rangeCount → PointD) :
    (updateMap m pose points).sendMsg.obstacles.length ≤ rangeCount ∧ m.resendingAll = false ∨
    (updateMap m pose points).sendMsg.obstacles.length =
      m.known + 2 * m.crossing (List.ofFn points) ∧ m.resendingAll = true := by
  set empty : Mapper := { m with sendMsg := ⟨m.sendMsg.pose, []⟩ } with hempty
  set scanned := addObstacles empty (List.ofFn points) with hscanned
  have hupdate : (updateMap m pose points).sendMsg.obstacles =
      (resendIfAsked scanned).sendMsg.obstacles := rfl
  have hresending : scanned.resendingAll = m.resendingAll := resendingAll_addObstacles _ _
  have hfilled : scanned.sendMsg.obstacles.length + m.known = 0 + scanned.known :=
    length_addObstacles empty (List.ofFn points)
  have hknown : scanned.known = m.known + m.crossing (List.ofFn points) :=
    known_addObstacles empty (List.ofFn points)
  rw [hupdate, resendIfAsked, hresending]
  cases m.resendingAll with
  | false =>
    refine .inl ⟨(length_addObstacles_le empty (List.ofFn points)).trans ?_, rfl⟩
    rw [List.length_ofFn]
    exact (zero_add rangeCount).le
  | true =>
    obtain ⟨-, hlength⟩ := length_resendAll { scanned with resendingAll := false }
    have hcleared : Mapper.known { scanned with resendingAll := false } = scanned.known := rfl
    rw [hcleared] at hlength
    refine .inr ⟨?_, rfl⟩
    rw [if_pos rfl, hlength]
    dsimp only
    omega

/-! ### Messages -/

/-- What is written of a message for which there is room has as many pairs as it announces. -/
theorem announced_send (pipe : TypedPipe) {u : Update} (h : u.obstacles.length ≤ maxObstacles) :
    commSendMapUpdate pipe u.toMessage = [] ∨
      (commSendMapUpdate pipe u.toMessage).length =
        headerSize + 2 * (announced (commSendMapUpdate pipe u.toMessage)).toInt.toNat := by
  by_cases hpipe : pipe.fdOut = 0 ∨ pipe.type ≠ .mapUpdate
  · exact .inl (by rw [commSendMapUpdate, if_pos hpipe])
  · rw [not_or, not_not] at hpipe
    have hcount : u.toMessage.obsCount.toInt = u.obstacles.length := by
      rw [maxObstacles] at h
      exact (BitVec.toInt_ofNat ..).trans (Int.bmod_eq_of_le (by omega) (by omega))
    have hfits : u.toMessage.Fits := by
      rw [MapUpdate.Fits, hcount]
      exact ⟨Nat.cast_nonneg _, Nat.cast_le.mpr h⟩
    have hannounced : announced (commSendMapUpdate pipe u.toMessage) = u.toMessage.obsCount := by
      rw [commSendMapUpdate_eq hpipe.1 hpipe.2 hfits]
      exact unpackInt_byteAt u.toMessage.obsCount
    refine .inr ?_
    rw [hannounced, commSendMapUpdate_eq hpipe.1 hpipe.2 hfits, List.length_append,
      length_obstacleBytes]
    rfl

/-- A step overflows exactly when there is no room for all obstacles and they are sent. -/
theorem noOverflow_step (pipe : TypedPipe) (m : Mapper) (input : Mapper.Input) :
    NoOverflow pipe m input ↔ RoomToResend m input := by
  cases input with
  | ack ack => rfl
  | scan pose points =>
    have hlength := length_updateMap m pose points
    refine Iff.trans (and_iff_left_of_imp fun h => announced_send pipe h) ?_
    rw [RoomToResend]
    rcases hlength with ⟨hle, hresending⟩ | ⟨heq, hresending⟩
    · -- sixteen points always find room
      have hroom : rangeCount ≤ maxObstacles := by decide
      exact iff_of_true (hle.trans hroom) fun h => absurd (hresending.symm.trans h) (by decide)
    · rw [heq]
      exact ⟨fun h _ => h, fun h => h hresending⟩

/-- **No overflow.** In a run of scans and acknowledgements from an empty map, no message has
more than `MAX_OBSTACLES` obstacles and each is written as its header announces, exactly when
every scan that sends all obstacles again finds room for them. -/
theorem no_overflow_iff (pipe : TypedPipe) (inputs : List Mapper.Input) :
    AllSteps Mapper.step (NoOverflow pipe) inputs .boot ↔
      AllSteps Mapper.step RoomToResend inputs .boot := by
  have hpointwise : NoOverflow pipe = RoomToResend :=
    funext fun m => funext fun input => propext (noOverflow_step pipe m input)
  rw [hpointwise]

/-! ### A run that overflows -/

/-- A scan all of whose points are at the centre of the `n`-th cell, row by row. -/
def scanOf (n : ℕ) : Mapper.Input :=
  let centre := degridify (n / gridNum : ℕ) (n % gridNum : ℕ)
  .scan centre fun _ => centre

/-- Scans of the first 2043 cells, a request to send all again, and one more scan. -/
def fillingRun : List Mapper.Input :=
  (List.range' 0 (maxObstacles + 1)).map scanOf ++ [.ack ⟨42, 1⟩, scanOf 0]

/-- Of the cells, the first `n` are known. -/
def Filled (n : ℕ) (m : Mapper) : Prop :=
  ∀ c ∈ cells, m.Knows c.1 c.2 ↔ gridNum * c.1 + c.2 < n

theorem Filled.known_eq {n : ℕ} (h : Filled n m) (hn : n ≤ gridNum * gridNum) : m.known = n := by
  have hfilter : (cells.filter fun c => obsThres < m.obstacleMap c.1 c.2) =
      cells.filter fun c => gridNum * c.1 + c.2 < n :=
    Finset.filter_congr h
  rw [Mapper.known, hfilter]
  refine (Finset.card_nbij' (t := Finset.range n) (fun c => gridNum * c.1 + c.2)
    (fun k => (k / gridNum, k % gridNum)) ?_ ?_ ?_ ?_).trans (Finset.card_range n)
  · intro c hc
    exact Finset.mem_coe.mpr (Finset.mem_range.mpr (Finset.mem_filter.mp hc).2)
  · intro k hk
    have hlt := Finset.mem_range.mp hk
    refine Finset.mem_coe.mpr (Finset.mem_filter.mpr ⟨mem_cells.mpr ⟨?_, ?_⟩, ?_⟩)
    · exact Nat.div_lt_of_lt_mul (hlt.trans_le hn)
    · exact Nat.mod_lt _ (by decide)
    · dsimp only
      rw [Nat.div_add_mod]
      exact hlt
  · intro c hc
    obtain ⟨-, hc₂⟩ := mem_cells.mp (Finset.mem_filter.mp hc).1
    refine Prod.ext ?_ ?_
    · dsimp only
      rw [Nat.mul_add_div (by decide), Nat.div_eq_of_lt hc₂, add_zero]
    · dsimp only
      rw [Nat.mul_add_mod, Nat.mod_eq_of_lt hc₂]
  · intro k _
    exact Nat.div_add_mod k gridNum

/-- A scan of the next cell makes it known, and no other. -/
theorem Filled.scan {n : ℕ} (h : Filled n m) (hn : n < gridNum * gridNum) :
    ∀ m' ∈ Mapper.step m (scanOf n), Filled (n + 1) m' := by
  intro m' hm' c hc
  obtain rfl := Option.some.inj hm'
  have hdiv : n / gridNum < gridNum := Nat.div_lt_of_lt_mul hn
  have hmod : n % gridNum < gridNum := Nat.mod_lt _ (by decide)
  have hcentre : gridify (degridify (n / gridNum : ℕ) (n % gridNum : ℕ)) =
      ⟨(n / gridNum : ℕ), (n % gridNum : ℕ)⟩ :=
    gridify_degridify ⟨Nat.cast_nonneg _, Nat.cast_lt.mpr hdiv, Nat.cast_nonneg _,
      Nat.cast_lt.mpr hmod⟩
  have hcell : gridify (degridify (n / gridNum : ℕ) (n % gridNum : ℕ)) = ⟨c.1, c.2⟩ ↔
      gridNum * c.1 + c.2 = n := by
    rw [hcentre, PointI.mk.injEq, Nat.cast_inj, Nat.cast_inj]
    obtain ⟨-, hc₂⟩ := mem_cells.mp hc
    simp only [gridNum] at hc₂ ⊢
    omega
  rw [knows_updateMap m _ _ hc, List.ofFn_const, hits, List.countP_replicate]
  simp only [hcell, decide_eq_true_eq]
  by_cases hthis : gridNum * c.1 + c.2 = n
  · -- all sixteen points are in the cell
    rw [if_pos hthis]
    refine iff_of_true (Nat.lt_of_lt_of_le ?_ (Nat.le_add_left ..)) (hthis.trans_lt n.lt_succ_self)
    decide
  · rw [if_neg hthis, add_zero]
    refine (h c hc).trans ?_
    omega

/-- A run that fills the map to 2043 cells overflows when all are sent again. -/
theorem not_noOverflow_fillingRun :
    ¬ AllSteps Mapper.step (NoOverflow ⟨.mapUpdate, 0, 4⟩) fillingRun .boot := by
  -- `k` cells are still to be scanned
  have hrest : ∀ k n : ℕ, n + k = maxObstacles + 1 → ∀ m : Mapper, Filled n m →
      ¬ AllSteps Mapper.step (NoOverflow ⟨.mapUpdate, 0, 4⟩)
        ((List.range' n k).map scanOf ++ [.ack ⟨42, 1⟩, scanOf 0]) m := by
    intro k
    induction k with
    | zero =>
      rintro n hn m hm ⟨-, hall⟩
      -- the acknowledgement asks for all that is known
      obtain ⟨hroom, -⟩ := hall _ rfl
      have hroom := (noOverflow_step _ _ (scanOf 0)).mp hroom rfl
      have hknown := hm.known_eq (by rw [← add_zero n, hn]; decide)
      rw [known_congr (show (m.takeAck ⟨42, 1⟩).obstacleMap = m.obstacleMap from rfl),
        hknown] at hroom
      omega
    | succ k ih =>
      rintro n hn m hm ⟨-, hall⟩
      have hlt : n < gridNum * gridNum := by
        simp only [maxObstacles, gridNum] at hn ⊢
        omega
      exact ih (n + 1) (by omega) _ (hm.scan hlt _ rfl) (hall _ rfl)
  refine hrest (maxObstacles + 1) 0 (zero_add _) .boot fun c _ => ?_
  exact iff_of_false (Nat.not_lt_zero _) (Nat.not_lt_zero _)

end S3RES.Mapping
