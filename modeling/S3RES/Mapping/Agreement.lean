import S3RES.Foundations.Recorder
import S3RES.Mapping.Overflow

/-!
# What the map of AStar means

Mapper counts the points of a cell up to one more than `OBS_THRES`, so an obstacle is a cell in which
more than `OBS_THRES` points were seen since Mapper was started (`counted_of_reaches`).

`agrees_when_quiet`: when no update is under way and no obstacles are going to be sent again, these
are the obstacles on the map of AStar, however often AStar was restarted. `catches_up`: that can
always be reached while scans keep coming.
-/

namespace S3RES.Mapping

open StepSystem

/-! ### Counts -/

variable {m : Mapper} {s s' : Net} {pose : PointI}

/-- The counts after the points of a scan, where `n` points had been seen in the cell. -/
theorem obstacleMap_addObstacles {c : ℕ × ℕ} (hc : c ∈ cells) (points : List PointD) {n : ℕ}
    (h : m.obstacleMap c.1 c.2 = min (obsThres + 1) n) :
    (addObstacles m points).obstacleMap c.1 c.2 = min (obsThres + 1) (n + hits points c) := by
  induction points generalizing m n with
  | nil => exact h
  | cons p points ih =>
    have hhits : hits (p :: points) c =
        hits points c + if gridify p = ⟨c.1, c.2⟩ then 1 else 0 := by
      simp only [hits, List.countP_cons, decide_eq_true_eq]
    have hfirst : (addObstacle m (gridify p)).1.obstacleMap c.1 c.2 =
        min (obsThres + 1) (n + if gridify p = ⟨c.1, c.2⟩ then 1 else 0) := by
      rw [obstacleMap_addObstacle m p hc]
      simp only [Mapper.Knows, h]
      by_cases hp : gridify p = ⟨c.1, c.2⟩
      · simp only [hp, true_and, if_true]
        split_ifs <;> omega
      · simp only [hp, false_and, if_false, add_zero]
    rw [hhits, show addObstacles m (p :: points) = addObstacles (addObstacle m (gridify p)).1 points
      from rfl, ih hfirst]
    congr 1
    omega

/-- Sending all again changes no count. -/
theorem obstacleMap_updateMap (m : Mapper) (pose : PointD) (points : Fin rangeCount → PointD) :
    (updateMap m pose points).obstacleMap =
      (addObstacles { m with sendMsg := ⟨m.sendMsg.pose, []⟩ } (List.ofFn points)).obstacleMap := by
  have hresend : ∀ t : Mapper, (resendIfAsked t).obstacleMap = t.obstacleMap := by
    intro t
    rw [resendIfAsked]
    split
    · exact (length_resendAll _).1
    · rfl
  exact hresend _

/-- The points that were seen. -/
def note (_ : Net) : Act → List PointD → List PointD
  | .scan _ points, seen => seen ++ List.ofFn points
  | _, seen => seen

/-- Mapper has counted what was seen. -/
def Counted (m : Mapper) (seen : List PointD) : Prop :=
  ∀ c ∈ cells, m.obstacleMap c.1 c.2 = min (obsThres + 1) (hits seen c)

theorem Counted.step {act : Act} {seen : List PointD} (h : Counted s.mapper seen)
    (hs : s' ∈ Mapping.step s act) : Counted s'.mapper (note s act seen) := by
  cases act with
  | scan pose points =>
    obtain rfl := Option.some.inj hs
    intro c hc
    have hseen : hits (seen ++ List.ofFn points) c = hits seen c + hits (List.ofFn points) c :=
      List.countP_append
    rw [note, hseen, obstacleMap_updateMap]
    exact obstacleMap_addObstacles hc (List.ofFn points) (h c hc)
  | mapperTakesAck =>
    simp only [Mapping.step] at hs
    split at hs
    · cases hs
    · rename_i ack acks hacks
      obtain rfl := Option.some.inj hs
      have hsame := (takeAck_spec s.mapper ack).1
      exact fun c hc => (congrFun (congrFun hsame c.1) c.2).trans (h c hc)
  | aStarTakesUpdate =>
    simp only [Mapping.step] at hs
    split at hs
    · cases hs
    · obtain rfl := Option.some.inj hs
      exact h
  | aStarRestarts pose =>
    obtain rfl := Option.some.inj hs
    exact h

theorem counted_of_reaches {x : Net × List PointD}
    (h : Reaches (record step note) (fun _ _ => True) (start pose, []) x) :
    Counted x.1.mapper x.2 := by
  refine h.invariant (I := fun x => Counted x.1.mapper x.2) (fun c _ => rfl) ?_
  rintro ⟨t, seen⟩ a ⟨u, seen'⟩ ht - hu
  obtain ⟨hu, rfl⟩ := mem_record.mp hu
  exact ht.step hu

/-! ### Agreement -/

/-- No update is under way, and no obstacles are going to be sent again. -/
structure Net.Quiet (s : Net) : Prop where
  updates : s.updates = []
  pending : ¬ s.ResendPending

/-- The obstacles of AStar are those of Mapper, which are what was counted. -/
theorem Net.Quiet.agrees {seen : List PointD} (hquiet : s.Quiet) (hinv : s.Inv)
    (hcounted : Counted s.mapper seen) (i j : ℤ) : s.aStar.obstacleMap i j = true ↔
      InGrid i j ∧ obsThres < seen.countP fun p => gridify p = ⟨i, j⟩ := by
  have hknows : s.aStar.obstacleMap i j = true ↔ s.mapper.Knows i j := by
    refine ⟨hinv.sound i j, fun hknows => (hinv.covered i j hknows).resolve_right ?_⟩
    rintro (⟨u, hu, -⟩ | hpending)
    · rw [hquiet.updates] at hu
      exact absurd hu List.not_mem_nil
    · exact hquiet.pending hpending
  rw [hknows, Mapper.Knows]
  by_cases hgrid : InGrid i j
  · obtain ⟨hi, hi', hj, hj'⟩ := hgrid
    lift i to ℕ using hi
    lift j to ℕ using hj
    have hcount : s.mapper.obstacleMap i j =
        min (obsThres + 1) (seen.countP fun p => gridify p = ⟨i, j⟩) :=
      hcounted (i, j) (mem_cells.mpr ⟨by omega, by omega⟩)
    rw [hcount, and_iff_right ⟨by omega, hi', by omega, hj'⟩]
    omega
  · -- nothing is counted outside the map
    have hzero : s.mapper.obstacleMap i j = 0 := by
      by_contra hne
      exact hgrid (hinv.onGrid i j hne)
    rw [hzero]
    exact iff_of_false (Nat.not_lt_zero _) fun h => hgrid h.1

theorem inv_of_reaches (h : Reaches step (fun _ _ => True) (start pose) s) : s.Inv :=
  h.invariant (I := Net.Inv) (inv_start pose) fun _ _ _ h _ hs => inv_step h hs

/-! ### Quiet is reached -/

/-- A scan, or a message is taken. -/
def Act.IsRound (pose : PointD) (points : Fin rangeCount → PointD) : Act → Prop
  | .scan pose' points' => pose' = pose ∧ points' = points
  | .mapperTakesAck | .aStarTakesUpdate => True
  | .aStarRestarts _ => False

/-- AStar asks for all at most once. -/
theorem requestAll_takeUpdate (a : AStar) (u : Update) : (a.takeUpdate u).1.requestAll = false ∧
    (a.requestAll = false → (a.takeUpdate u).2.resendRequest ≠ 1) := by
  rw [AStar.takeUpdate]
  simp only [requestAll_enter]
  split_ifs with hall
  · exact ⟨rfl, fun hnone => Bool.noConfusion (hall.symm.trans hnone)⟩
  · refine ⟨?_, fun _ => zero_ne_one⟩
    rw [requestAll_enter]
    exact Bool.eq_false_iff.mpr hall

/-- AStar can take all updates, and does not ask for all any more then. -/
theorem reaches_taken (pose : PointD) (points : Fin rangeCount → PointD) (s : Net)
    (hasked : s.updates ≠ [] ∨ s.aStar.requestAll = false) :
    ∃ t, Reaches step (fun _ act => act.IsRound pose points) s t ∧ t.updates = [] ∧
      t.aStar.requestAll = false ∧ t.mapper = s.mapper ∧
      (s.aStar.requestAll = false → (∀ ack ∈ s.acks, ack.resendRequest ≠ 1) →
        ∀ ack ∈ t.acks, ack.resendRequest ≠ 1) := by
  induction h : s.updates generalizing s with
  | nil => exact ⟨s, .refl, h, hasked.resolve_left (not_not.mpr h), rfl, fun _ hacks => hacks⟩
  | cons u updates ih =>
    obtain ⟨hnone, hack⟩ := requestAll_takeUpdate s.aStar u
    set s' : Net := { s with
      aStar := (s.aStar.takeUpdate u).1
      updates := updates
      acks := s.acks ++ [(s.aStar.takeUpdate u).2] }
    have hs : s' ∈ step s .aStarTakesUpdate := by simp [step, h, s']
    obtain ⟨t, ht, hupdates, hrequest, hmapper, hacks⟩ := ih s' (.inr hnone) rfl
    have hfirst : Reaches step (fun _ act => act.IsRound pose points) s s' :=
      .tail (a := .aStarTakesUpdate) .refl trivial hs
    refine ⟨t, hfirst.trans ht, hupdates, hrequest, hmapper, fun hbefore hall => hacks hnone ?_⟩
    exact List.forall_mem_append.mpr ⟨hall, List.forall_mem_singleton.mpr (hack hbefore)⟩

/-- Mapper can take all acknowledgements. -/
theorem reaches_acknowledged (pose : PointD) (points : Fin rangeCount → PointD) (s : Net) :
    ∃ t, Reaches step (fun _ act => act.IsRound pose points) s t ∧ t.acks = [] ∧
      t.updates = s.updates ∧ t.aStar = s.aStar := by
  induction h : s.acks generalizing s with
  | nil => exact ⟨s, .refl, h, rfl, rfl⟩
  | cons ack acks ih =>
    have hs : { s with mapper := s.mapper.takeAck ack, acks := acks } ∈ step s .mapperTakesAck := by
      simp [step, h]
    obtain ⟨t, ht, hacks, hupdates, haStar⟩ :=
      ih { s with mapper := s.mapper.takeAck ack, acks := acks } rfl
    have hfirst : Reaches step (fun _ act => act.IsRound pose points) s _ :=
      .tail (a := .mapperTakesAck) .refl trivial hs
    exact ⟨t, hfirst.trans ht, hacks, hupdates, haStar⟩

/-- Behind a scan Mapper is not going to send all again. -/
theorem resendingAll_updateMap (m : Mapper) (pose : PointD) (points : Fin rangeCount → PointD) :
    (updateMap m pose points).resendingAll = false := by
  have hresend : ∀ m : Mapper, (resendAll m).resendingAll = m.resendingAll := fun m =>
    Loop.loop_proj (·.resendingAll) (fun i m => Loop.loop_proj (·.resendingAll)
      (fun j m => by split <;> rfl) gridNum m) gridNum m
  rw [updateMap]
  dsimp only
  rw [resendIfAsked]
  split_ifs with hasked
  · exact hresend _
  · exact Bool.eq_false_iff.mpr hasked

/-- As long as scans keep coming, whatever they see: if AStar is not restarted, Mapper and AStar can
get quiet from every state. -/
theorem gets_quiet (s : Net) (pose : PointD) (points : Fin rangeCount → PointD) :
    ∃ t, Reaches step (fun _ act => act.IsRound pose points) s t ∧ t.Quiet := by
  have hscan : ∀ s : Net, Reaches step (fun _ act => act.IsRound pose points) s
      { s with
        mapper := updateMap s.mapper pose points
        updates := s.updates ++ [(updateMap s.mapper pose points).sendMsg] } := fun s =>
    .tail (a := .scan pose points) .refl ⟨rfl, rfl⟩ rfl
  -- AStar asks for all if it has to, Mapper hears of it, and sends all with the next scan
  obtain ⟨t₁, h₁, hupdates₁, hrequest₁, -, -⟩ := reaches_taken pose points
    { s with
      mapper := updateMap s.mapper pose points
      updates := s.updates ++ [(updateMap s.mapper pose points).sendMsg] } (.inl (by simp))
  obtain ⟨t₂, h₂, hacks₂, hupdates₂, haStar₂⟩ := reaches_acknowledged pose points t₁
  obtain ⟨t₃, h₃, hupdates₃, hrequest₃, hmapper₃, hacks₃⟩ := reaches_taken pose points { t₂ with
      mapper := updateMap t₂.mapper pose points
      updates := t₂.updates ++ [(updateMap t₂.mapper pose points).sendMsg] } (.inl (by simp))
  refine ⟨t₃, ((((hscan s).trans h₁).trans h₂).trans (hscan t₂)).trans h₃, hupdates₃, ?_⟩
  rintro (hall | ⟨ack, hack, hone⟩ | hall)
  · exact Bool.noConfusion (hall.symm.trans hrequest₃)
  · exact hacks₃ (haStar₂ ▸ hrequest₁) (by simp [hacks₂]) ack hack hone
  · rw [hmapper₃] at hall
    exact Bool.noConfusion (hall.symm.trans (resendingAll_updateMap _ _ _))

/-! ### Runs -/

/-- **Agreement.** In every order of steps, with AStar being restarted at any time: when it is quiet,
the obstacles on the map of AStar are the cells in which more than `OBS_THRES` points were seen. -/
theorem agrees_when_quiet {x : Net × List PointD}
    (h : Reaches (record step note) (fun _ _ => True) (start pose, []) x) (hquiet : x.1.Quiet)
    (i j : ℤ) : x.1.aStar.obstacleMap i j = true ↔
      InGrid i j ∧ obsThres < x.2.countP fun p => gridify p = ⟨i, j⟩ := by
  have hrun : Reaches step (fun _ _ => True) (start pose) x.1 := h.forget
  exact hquiet.agrees (inv_of_reaches hrun) (counted_of_reaches h) i j

/-- Both see the same wherever the points of a run are. -/
theorem agrees_when_quiet_start : ∃ x : Net × List PointD, x.1.Quiet ∧
    (x.1.aStar.obstacleMap 27 27 = true ↔
      InGrid 27 27 ∧ obsThres < x.2.countP fun p => gridify p = ⟨27, 27⟩) := by
  obtain ⟨t, ht, hquiet⟩ := gets_quiet (start ⟨0, 0⟩) ⟨0, 0⟩ fun _ => ⟨1, 1⟩
  obtain ⟨seen, hseen⟩ := ht.exists_record note []
  exact ⟨(t, seen), hquiet,
    agrees_when_quiet (hseen.mono fun _ _ _ => trivial) hquiet 27 27⟩

/-- **Catching up.** Whatever was sent, lost with a replica or asked for again until now: as long as
scans keep coming and AStar is not restarted again, its obstacles can become all that was seen. -/
theorem catches_up {x : Net × List PointD}
    (h : Reaches (record step note) (fun _ _ => True) (start pose, []) x) (scanPose : PointD)
    (points : Fin rangeCount → PointD) :
    ∃ y, Reaches (record step note) (fun _ act => act.IsRound scanPose points) x y ∧
      ∀ i j, y.1.aStar.obstacleMap i j = true ↔
        InGrid i j ∧ obsThres < y.2.countP fun p => gridify p = ⟨i, j⟩ := by
  obtain ⟨t, ht, hquiet⟩ := gets_quiet x.1 scanPose points
  obtain ⟨seen, hseen⟩ := ht.exists_record note x.2
  have hy : Reaches (record step note) (fun _ _ => True) (start pose, []) (t, seen) :=
    h.trans (hseen.mono fun _ _ _ => trivial)
  have hrun : Reaches step (fun _ _ => True) (start pose) (t, seen).1 := hy.forget
  exact ⟨(t, seen), hseen, hquiet.agrees (inv_of_reaches hrun) (counted_of_reaches hy)⟩

/-- From the start. -/
theorem catches_up_start : ∃ y : Net × List PointD,
    Reaches (record step note) (fun _ act => act.IsRound ⟨0, 0⟩ fun _ => ⟨1, 1⟩)
        (start ⟨0, 0⟩, []) y ∧
      ∀ i j, y.1.aStar.obstacleMap i j = true ↔
        InGrid i j ∧ obsThres < y.2.countP fun p => gridify p = ⟨i, j⟩ :=
  catches_up .refl ⟨0, 0⟩ fun _ => ⟨1, 1⟩

end S3RES.Mapping
