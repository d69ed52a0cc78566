import S3RES.Foundations.Loop
import S3RES.Foundations.StepSystem
import S3RES.Mapping.Grid

/-!
# Obstacles on their way from Mapper to AStar

Mapper counts how often each cell was seen and sends the cells whose count has come to exceed
`OBS_THRES`. AStar acknowledges every update; after a restart its first acknowledgement asks for
all obstacles again. Updates and acknowledgements are queues, a message is taken as a whole.

`no_obstacle_lost`: in every order of steps, an obstacle that AStar does not know is on its way,
or all are going to be sent again.
-/

namespace S3RES.Mapping

open Loop StepSystem

/-- `OBS_THRES` and `RANGE_COUNT`. -/
def obsThres : ℕ := 2

def rangeCount : ℕ := 16

/-- `struct comm_map_update`: the pose and the obstacles, a coordinate in a byte. -/
structure Update where
  pose : PointI
  obstacles : List (UInt8 × UInt8)

/-- `struct comm_ack`. -/
structure Ack where
  hash : ℤ
  resendRequest : ℤ

/-! ### Mapper -/

/-- The variables of Mapper. -/
structure Mapper where
  obstacleMap : ℤ → ℤ → ℕ
  sendMsg : Update
  resendingAll : Bool

/-- The obstacle goes into the message. -/
def Mapper.push (m : Mapper) (x y : ℤ) : Mapper :=
  { m with sendMsg :=
    { m.sendMsg with
      obstacles := m.sendMsg.obstacles ++ [(UInt8.ofNat x.toNat, UInt8.ofNat y.toNat)] } }

/-- `obstacle_map[x][y]++`. -/
def Mapper.increment (m : Mapper) (x y : ℤ) : Mapper :=
  { m with obstacleMap :=
    Function.update m.obstacleMap x (Function.update (m.obstacleMap x) y (m.obstacleMap x y + 1)) }

/-- `addObstacle`, and whether something changed. -/
def addObstacle (m : Mapper) (obs : PointI) : Mapper × Bool :=
  if obs.x < 0 ∨ obs.x > gridNum ∨ obs.y < 0 ∨ obs.y > gridNum then (m, false)
  else if m.obstacleMap obs.x obs.y > obsThres then (m, false)
  else
    let m := m.increment obs.x obs.y
    (if m.obstacleMap obs.x obs.y > obsThres then m.push obs.x obs.y else m, true)

/-- The loops that put all obstacles into the message. -/
def resendAll (m : Mapper) : Mapper :=
  loop (fun i m => loop (fun (j : ℕ) m => if m.obstacleMap i j > obsThres then m.push i j else m)
    gridNum m) gridNum m

/-- The loop over the points of a scan. -/
def addObstacles (m : Mapper) (points : List PointD) : Mapper :=
  points.foldl (fun m p => (addObstacle m (gridify p)).1) m

/-- The branch `if (resending_all)`. -/
def resendIfAsked (m : Mapper) : Mapper :=
  if m.resendingAll then resendAll { m with resendingAll := false } else m

/-- `updateMap`, for the pose and the points the ranges were converted to. -/
def updateMap (m : Mapper) (pose : PointD) (points : Fin rangeCount → PointD) : Mapper :=
  let m := addObstacles { m with sendMsg := ⟨m.sendMsg.pose, []⟩ } (List.ofFn points)
  let m := resendIfAsked m
  { m with sendMsg := ⟨gridify pose, m.sendMsg.obstacles⟩ }

/-- Mapper reads an acknowledgement. -/
def Mapper.takeAck (m : Mapper) (ack : Ack) : Mapper :=
  if 1 = ack.resendRequest then { m with resendingAll := true } else m

/-! ### AStar -/

/-- The variables of AStar that updates change. -/
structure AStar where
  obstacleMap : ℤ → ℤ → Bool
  pose : PointI
  fakeHash : ℤ
  requestAll : Bool

/-- AStar as `main` starts it. -/
def AStar.boot (pose : PointI) : AStar := ⟨fun _ _ => false, pose, 42, true⟩

/-- `obstacle_map[x][y] = true`. -/
def AStar.mark (a : AStar) (x y : ℤ) : AStar :=
  { a with
    obstacleMap := Function.update a.obstacleMap x (Function.update (a.obstacleMap x) y true) }

/-- The loop that enters the obstacles. -/
def AStar.enter (a : AStar) (obstacles : List (UInt8 × UInt8)) : AStar :=
  obstacles.foldl (fun a o => a.mark o.1.toNat o.2.toNat) a

/-- AStar reads an update, and acknowledges it. -/
def AStar.takeUpdate (a : AStar) (u : Update) : AStar × Ack :=
  let a := { a with pose := u.pose }.enter u.obstacles
  if a.requestAll then ({ a with requestAll := false }, ⟨a.fakeHash, 1⟩) else (a, ⟨a.fakeHash, 0⟩)

/-! ### Both -/

/-- Mapper, AStar, and what is in the pipes between them, the oldest first. -/
structure Net where
  mapper : Mapper
  aStar : AStar
  updates : List Update
  acks : List Ack

/-- What can happen. -/
inductive Act
  | scan (pose : PointD) (points : Fin rangeCount → PointD)
  | mapperTakesAck
  | aStarTakesUpdate
  | aStarRestarts (pose : PointI)

/-- One step; a message can be taken if there is one. -/
def step (s : Net) : Act → Option Net
  | .scan pose points =>
    let mapper := updateMap s.mapper pose points
    some { s with mapper := mapper, updates := s.updates ++ [mapper.sendMsg] }
  | .mapperTakesAck =>
    match s.acks with
    | [] => none
    | ack :: acks => some { s with mapper := s.mapper.takeAck ack, acks := acks }
  | .aStarTakesUpdate =>
    match s.updates with
    | [] => none
    | u :: updates =>
      let taken := s.aStar.takeUpdate u
      some { s with aStar := taken.1, updates := updates, acks := s.acks ++ [taken.2] }
  | .aStarRestarts pose => some { s with aStar := .boot pose }

/-- Both have just been started. -/
def start (pose : PointI) : Net :=
  ⟨⟨fun _ _ => 0, ⟨⟨0, 0⟩, []⟩, false⟩, .boot pose, [], []⟩

/-! ### What a message reports -/

variable {m m₀ m' : Mapper} {a : AStar} {u : Update} {s s' : Net} {x y i j : ℤ}

/-- The update contains the cell. -/
def Update.Reports (u : Update) (x y : ℤ) : Prop :=
  ∃ o ∈ u.obstacles, (o.1.toNat : ℤ) = x ∧ (o.2.toNat : ℤ) = y

/-- The cell is an obstacle for Mapper. -/
def Mapper.Knows (m : Mapper) (x y : ℤ) : Prop := obsThres < m.obstacleMap x y

theorem toNat_ofNat_toNat (h : 0 ≤ i ∧ i ≤ gridNum) : ((UInt8.ofNat i.toNat).toNat : ℤ) = i := by
  rw [UInt8.toNat_ofNat']
  simp only [gridNum] at h
  omega

theorem reports_push (hx : 0 ≤ i ∧ i ≤ gridNum) (hy : 0 ≤ j ∧ j ≤ gridNum) :
    (m.push i j).sendMsg.Reports x y ↔ m.sendMsg.Reports x y ∨ (i = x ∧ j = y) := by
  simp only [Update.Reports, Mapper.push, List.mem_append, List.mem_singleton, or_and_right,
    exists_or, exists_eq_left, toNat_ofNat_toNat hx, toNat_ofNat_toNat hy]

theorem obstacleMap_increment (m : Mapper) (i j x y : ℤ) : (m.increment i j).obstacleMap x y =
    if x = i ∧ y = j then m.obstacleMap i j + 1 else m.obstacleMap x y := by
  rcases eq_or_ne x i with rfl | hx
  · rcases eq_or_ne y j with rfl | hy
    · simp [Mapper.increment]
    · simp [Mapper.increment, hy]
  · simp [Mapper.increment, hx]

/-- A part of a scan that began with `m₀` and an empty message: counts have grown and are
bounded, and the message reports what has become known and nothing unknown. -/
structure Scanned (m₀ m : Mapper) : Prop where
  mono : ∀ x y, m₀.obstacleMap x y ≤ m.obstacleMap x y
  bounded : ∀ x y, m.obstacleMap x y ≤ obsThres + 1
  onGrid : ∀ x y, m.obstacleMap x y ≠ 0 → InGrid x y
  new : ∀ x y, m.Knows x y → m₀.Knows x y ∨ m.sendMsg.Reports x y
  known : ∀ x y, m.sendMsg.Reports x y → m.Knows x y

/-- Only the counts and the obstacles in the message count. -/
theorem Scanned.congr (h : Scanned m₀ m) (hmap : m'.obstacleMap = m.obstacleMap)
    (hsend : m'.sendMsg.obstacles = m.sendMsg.obstacles) : Scanned m₀ m' := by
  have hknows : ∀ x y, m'.Knows x y ↔ m.Knows x y := fun x y => by
    rw [Mapper.Knows, Mapper.Knows, hmap]
  have hreports : ∀ x y, m'.sendMsg.Reports x y ↔ m.sendMsg.Reports x y := fun x y => by
    rw [Update.Reports, Update.Reports, hsend]
  refine ⟨?_, ?_, ?_, fun x y hk => ?_, fun x y hr => ?_⟩
  · rw [hmap]
    exact h.mono
  · rw [hmap]
    exact h.bounded
  · rw [hmap]
    exact h.onGrid
  · exact (h.new x y ((hknows x y).mp hk)).imp_right (hreports x y).mpr
  · exact (hknows x y).mpr (h.known x y ((hreports x y).mp hr))

/-- Mapper comes to know a cell and reports it. -/
theorem Scanned.push (h : Scanned m₀ m) (hcell : InGrid i j) (hknows : m.Knows i j) :
    Scanned m₀ (m.push i j) := by
  obtain ⟨hx, hx', hy, hy'⟩ := hcell
  have hreports : ∀ {x y}, (m.push i j).sendMsg.Reports x y ↔
      m.sendMsg.Reports x y ∨ (i = x ∧ j = y) := reports_push ⟨hx, hx'.le⟩ ⟨hy, hy'.le⟩
  refine ⟨h.mono, h.bounded, h.onGrid, fun x y hk => ?_, fun x y hr => ?_⟩
  · rw [hreports]
    exact (h.new x y hk).imp_right .inl
  · rcases hreports.mp hr with hr | ⟨rfl, rfl⟩
    · exact h.known x y hr
    · exact hknows

/-- What `addObstacle` does with a cell of the map that is no obstacle yet. -/
theorem addObstacle_spec {obs : PointI} (hcell : InGrid obs.x obs.y)
    (hunknown : ¬ m.Knows obs.x obs.y) :
    (∀ x y, (addObstacle m obs).1.obstacleMap x y =
      if x = obs.x ∧ y = obs.y then m.obstacleMap obs.x obs.y + 1 else m.obstacleMap x y) ∧
    (∀ x y, (addObstacle m obs).1.sendMsg.Reports x y ↔ m.sendMsg.Reports x y ∨
      obsThres < m.obstacleMap obs.x obs.y + 1 ∧ obs.x = x ∧ obs.y = y) := by
  obtain ⟨hx, hx', hy, hy'⟩ := hcell
  have hcount := obstacleMap_increment m obs.x obs.y
  have hnow : (m.increment obs.x obs.y).obstacleMap obs.x obs.y =
      m.obstacleMap obs.x obs.y + 1 := by simp [hcount]
  rw [addObstacle, if_neg (by omega),
    if_neg (show ¬ m.obstacleMap obs.x obs.y > obsThres from hunknown)]
  simp only [hnow]
  by_cases hknows : m.obstacleMap obs.x obs.y + 1 > obsThres
  · simp only [if_pos hknows]
    refine ⟨hcount, fun x y => ?_⟩
    rw [reports_push ⟨hx, hx'.le⟩ ⟨hy, hy'.le⟩]
    exact or_congr_right (and_iff_right hknows).symm
  · simp only [if_neg hknows]
    exact ⟨hcount, fun x y => (or_iff_left fun h => hknows h.1).symm⟩

theorem Scanned.addObstacle (h : Scanned m₀ m) (p : PointD) :
    Scanned m₀ (addObstacle m (gridify p)).1 := by
  obtain ⟨hx, hy⟩ := gridify_ne p
  set obs := gridify p
  by_cases hcell : InGrid obs.x obs.y
  · by_cases hknows : m.Knows obs.x obs.y
    · rw [Mapping.addObstacle]
      split
      · exact h
      · rw [if_pos (show m.obstacleMap obs.x obs.y > obsThres from hknows)]
        exact h
    · obtain ⟨hcount, hreports⟩ := addObstacle_spec hcell hknows
      refine ⟨fun x y => ?_, fun x y => ?_, fun x y hne => ?_, fun x y hk => ?_, fun x y hr => ?_⟩
      · rw [hcount]
        split
        · rename_i heq
          rw [heq.1, heq.2]
          exact (h.mono _ _).trans (Nat.le_succ _)
        · exact h.mono x y
      · rw [hcount]
        split
        · have := not_lt.mp hknows
          omega
        · exact h.bounded x y
      · rw [hcount] at hne
        split at hne
        · rename_i heq
          rw [heq.1, heq.2]
          exact hcell
        · exact h.onGrid x y hne
      · rw [Mapper.Knows, hcount] at hk
        rw [hreports]
        split at hk
        · rename_i heq
          exact .inr (.inr ⟨hk, heq.1.symm, heq.2.symm⟩)
        · exact (h.new x y hk).imp_right .inl
      · rw [Mapper.Knows, hcount]
        rcases (hreports x y).mp hr with hr | ⟨hlt, rfl, rfl⟩
        · split
          · rename_i heq
            have := h.known x y hr
            rw [heq.1, heq.2] at this
            exact this.trans (Nat.lt_succ_self _)
          · exact h.known x y hr
        · rw [if_pos ⟨rfl, rfl⟩]
          exact hlt
  · have houtside : obs.x < 0 ∨ obs.x > gridNum ∨ obs.y < 0 ∨ obs.y > gridNum := by
      simp only [InGrid] at hcell
      omega
    rw [Mapping.addObstacle, if_pos houtside]
    exact h

theorem resendingAll_addObstacle (m : Mapper) (obs : PointI) :
    (addObstacle m obs).1.resendingAll = m.resendingAll := by
  rw [addObstacle]
  split
  · rfl
  · split
    · rfl
    · dsimp only
      split <;> rfl

/-- After the points of a scan. -/
theorem Scanned.addObstacles (h : Scanned m₀ m) (points : List PointD) :
    Scanned m₀ (addObstacles m points) ∧
      (Mapping.addObstacles m points).resendingAll = m.resendingAll := by
  induction points generalizing m with
  | nil => exact ⟨h, rfl⟩
  | cons p points ih =>
    obtain ⟨hscanned, hresending⟩ := ih (h.addObstacle p)
    exact ⟨hscanned, hresending.trans (resendingAll_addObstacle m (gridify p))⟩

/-- After some of the loops of `resendAll`: the cells for which `P` holds were looked at. -/
structure Resent (m₀ m' : Mapper) (P : ℤ → ℤ → Prop) : Prop extends Scanned m₀ m' where
  resent : ∀ x y, P x y → m'.Knows x y → m'.sendMsg.Reports x y

/-- The loops of `resendAll` look at the next cell. -/
theorem Resent.next {P : ℤ → ℤ → Prop} (h : Resent m₀ m P) (hcell : InGrid i j) :
    Resent m₀ (if m.obstacleMap i j > obsThres then m.push i j else m)
      fun x y => P x y ∨ i = x ∧ j = y := by
  have hreports : ∀ {x y}, (m.push i j).sendMsg.Reports x y ↔
      m.sendMsg.Reports x y ∨ (i = x ∧ j = y) :=
    reports_push ⟨hcell.1, hcell.2.1.le⟩ ⟨hcell.2.2.1, hcell.2.2.2.le⟩
  split
  · rename_i hknows
    refine ⟨h.toScanned.push hcell hknows, fun x y hP hk => hreports.mpr ?_⟩
    exact hP.imp_left fun hP => h.resent x y hP hk
  · rename_i hunknown
    refine ⟨h.toScanned, fun x y hP hk => ?_⟩
    rcases hP with hP | ⟨rfl, rfl⟩
    · exact h.resent x y hP hk
    · exact absurd hk hunknown

/-- After the loops of `resendAll` the message reports all obstacles. -/
theorem Scanned.resendAll (h : Scanned m₀ m) :
    Scanned m₀ (resendAll m) ∧
      ∀ x y, (Mapping.resendAll m).Knows x y → (Mapping.resendAll m).sendMsg.Reports x y := by
  have houter : Resent m₀ (Mapping.resendAll m) fun x y => x < gridNum ∧ InGrid x y := by
    refine loop_induction (fun k t => Resent m₀ t fun x y => x < k ∧ InGrid x y)
      ⟨h, fun x y hP _ => absurd hP.1 (not_lt.mpr hP.2.1)⟩ fun k hk t ht => ?_
    -- the inner loop, after `l` cells of row `k`
    have hinner := loop_induction (n := gridNum) (s := t)
      (f := fun (j : ℕ) m => if m.obstacleMap k j > obsThres then m.push k j else m)
      (fun l t => Resent m₀ t fun x y => (x < k ∨ x = k ∧ y < l) ∧ InGrid x y)
      ⟨ht.toScanned, fun x y hP hknows => ht.resent x y ⟨?_, hP.2⟩ hknows⟩ fun l hl t ht => ?_
    · refine ⟨hinner.toScanned, fun x y hP hknows => hinner.resent x y ⟨?_, hP.2⟩ hknows⟩
      have := hP.2.2.2
      omega
    · have := hP.2.2.2.1
      omega
    · have hnext := ht.next (i := k) (j := l) ⟨by omega, by omega, by omega, by omega⟩
      refine ⟨hnext.toScanned, fun x y hP hknows => hnext.resent x y ?_ hknows⟩
      by_cases hlast : x = k ∧ y = l
      · exact .inr ⟨hlast.1.symm, hlast.2.symm⟩
      · exact .inl ⟨by omega, hP.2⟩
  refine ⟨houter.toScanned, fun x y hknows => ?_⟩
  have hcell := houter.onGrid x y (by rw [Mapper.Knows] at hknows; omega)
  exact houter.resent x y ⟨hcell.2.1, hcell⟩ hknows

theorem Scanned.resendIfAsked (h : Scanned m₀ m) : Scanned m₀ (resendIfAsked m) ∧
    (m.resendingAll = true → ∀ x y, (Mapping.resendIfAsked m).Knows x y →
      (Mapping.resendIfAsked m).sendMsg.Reports x y) := by
  rw [Mapping.resendIfAsked]
  split
  · have hcleared : Scanned m₀ { m with resendingAll := false } := h.congr rfl rfl
    exact ⟨hcleared.resendAll.1, fun _ => hcleared.resendAll.2⟩
  · rename_i hnone
    exact ⟨h, fun hall => absurd hall hnone⟩

/-- **A scan.** Counts stay bounded, the message reports what has become known, and all
obstacles if they are to be sent again. -/
theorem scanned_updateMap (hbounded : ∀ x y, m.obstacleMap x y ≤ obsThres + 1)
    (hgrid : ∀ x y, m.obstacleMap x y ≠ 0 → InGrid x y) (pose : PointD)
    (points : Fin rangeCount → PointD) :
    Scanned m (updateMap m pose points) ∧ (m.resendingAll = true →
      ∀ x y, (updateMap m pose points).Knows x y →
        (updateMap m pose points).sendMsg.Reports x y) := by
  have hempty : Scanned m { m with sendMsg := ⟨m.sendMsg.pose, []⟩ } :=
    ⟨fun _ _ => le_rfl, hbounded, hgrid, fun _ _ h => .inl h, fun x y ⟨o, ho, _⟩ =>
      absurd ho List.not_mem_nil⟩
  obtain ⟨hscanned, hresending⟩ := hempty.addObstacles (List.ofFn points)
  have hresent := hscanned.resendIfAsked
  rw [hresending] at hresent
  rw [updateMap]
  generalize resendIfAsked (addObstacles _ _) = m₂ at hresent ⊢
  exact ⟨hresent.1.congr rfl rfl, hresent.2⟩

/-! ### No obstacle is lost -/

theorem obstacleMap_mark (a : AStar) (i j x y : ℤ) :
    (a.mark i j).obstacleMap x y = true ↔ a.obstacleMap x y = true ∨ i = x ∧ j = y := by
  rcases eq_or_ne x i with rfl | hx
  · rcases eq_or_ne y j with rfl | hy
    · simp [AStar.mark]
    · simp [AStar.mark, hy, hy.symm]
  · simp [AStar.mark, hx, hx.symm]

theorem requestAll_enter (a : AStar) (obstacles : List (UInt8 × UInt8)) :
    (a.enter obstacles).requestAll = a.requestAll := by
  induction obstacles generalizing a with
  | nil => rfl
  | cons o obstacles ih => exact ih _

theorem obstacleMap_enter (a : AStar) (u : Update) (x y : ℤ) :
    (a.enter u.obstacles).obstacleMap x y = true ↔ a.obstacleMap x y = true ∨ u.Reports x y := by
  rw [Update.Reports, AStar.enter]
  induction u.obstacles generalizing a with
  | nil => simp
  | cons o obstacles ih =>
    rw [List.foldl_cons, ih, obstacleMap_mark]
    simp only [List.mem_cons, exists_eq_or_imp, or_assoc]

/-- All obstacles are going to be sent: AStar is going to ask for them, has asked, or Mapper was
asked. -/
def Net.ResendPending (s : Net) : Prop :=
  s.aStar.requestAll = true ∨ (∃ ack ∈ s.acks, ack.resendRequest = 1) ∨
    s.mapper.resendingAll = true

/-- The property of the two maps. -/
structure Net.Safe (s : Net) : Prop where
  covered : ∀ x y, s.mapper.Knows x y →
    s.aStar.obstacleMap x y = true ∨ (∃ u ∈ s.updates, u.Reports x y) ∨ s.ResendPending
  sound : ∀ x y, s.aStar.obstacleMap x y = true → s.mapper.Knows x y
  bounded : ∀ x y, s.mapper.obstacleMap x y ≤ obsThres + 1

/-- The invariant: in addition, counts are on the map, and updates report what Mapper knows. -/
structure Net.Inv (s : Net) : Prop extends s.Safe where
  onGrid : ∀ x y, s.mapper.obstacleMap x y ≠ 0 → InGrid x y
  reported : ∀ u ∈ s.updates, ∀ x y, u.Reports x y → s.mapper.Knows x y

/-- What an acknowledgement does to Mapper. -/
theorem takeAck_spec (m : Mapper) (ack : Ack) : (m.takeAck ack).obstacleMap = m.obstacleMap ∧
    ((m.takeAck ack).resendingAll = true ↔ ack.resendRequest = 1 ∨ m.resendingAll = true) := by
  rw [Mapper.takeAck]
  split
  · rename_i hone
    exact ⟨rfl, iff_of_true rfl (.inl hone.symm)⟩
  · rename_i hne
    exact ⟨rfl, (or_iff_right fun h => hne h.symm).symm⟩

/-- What an update does to AStar, and which acknowledgement it draws. -/
theorem takeUpdate_spec (a : AStar) (u : Update) :
    (∀ x y, (a.takeUpdate u).1.obstacleMap x y = true ↔
      a.obstacleMap x y = true ∨ u.Reports x y) ∧
    (a.requestAll = true → (a.takeUpdate u).2.resendRequest = 1) := by
  have hmap := obstacleMap_enter { a with pose := u.pose } u
  rw [AStar.takeUpdate]
  simp only [requestAll_enter]
  split
  · exact ⟨hmap, fun _ => rfl⟩
  · rename_i hnone
    exact ⟨hmap, fun hall => absurd hall hnone⟩

theorem inv_start (pose : PointI) : (start pose).Inv := by
  refine ⟨⟨fun x y h => absurd h (Nat.not_lt_zero _), fun x y h => Bool.noConfusion h,
    fun x y => Nat.zero_le _⟩, fun x y h => absurd rfl h, fun u hu => absurd hu List.not_mem_nil⟩

theorem inv_step {act : Act} (h : s.Inv) (hs : s' ∈ step s act) : s'.Inv := by
  cases act with
  | scan pose points =>
    obtain rfl := Option.some.inj hs
    obtain ⟨hscanned, hall⟩ := scanned_updateMap h.bounded h.onGrid pose points
    have hmono : ∀ x y, s.mapper.Knows x y → (updateMap s.mapper pose points).Knows x y :=
      fun x y hk => lt_of_lt_of_le hk (hscanned.mono x y)
    refine ⟨⟨fun x y hk => ?_, fun x y ha => hmono x y (h.sound x y ha), hscanned.bounded⟩,
      hscanned.onGrid, fun u hu x y hr => ?_⟩
    · rcases hscanned.new x y hk with hk' | hr
      · rcases h.covered x y hk' with ha | ⟨u, hu, hr⟩ | hpending
        · exact .inl ha
        · exact .inr (.inl ⟨u, List.mem_append_left _ hu, hr⟩)
        · rcases hpending with hrequest | hack | hresending
          · exact .inr (.inr (.inl hrequest))
          · exact .inr (.inr (.inr (.inl hack)))
          · exact .inr (.inl ⟨_, List.mem_concat_self, hall hresending x y hk⟩)
      · exact .inr (.inl ⟨_, List.mem_concat_self, hr⟩)
    · rcases List.mem_append.mp hu with hu | hu
      · exact hmono x y (h.reported u hu x y hr)
      · obtain rfl := List.mem_singleton.mp hu
        exact hscanned.known x y hr
  | mapperTakesAck =>
    simp only [step] at hs
    split at hs
    · cases hs
    · rename_i ack acks hacks
      obtain rfl := Option.some.inj hs
      obtain ⟨hmap, hresending⟩ := takeAck_spec s.mapper ack
      have hknows : ∀ x y, (s.mapper.takeAck ack).Knows x y ↔ s.mapper.Knows x y := fun x y => by
        rw [Mapper.Knows, Mapper.Knows, hmap]
      refine ⟨⟨fun x y hk => ?_, fun x y ha => (hknows x y).mpr (h.sound x y ha), ?_⟩, ?_,
        fun u hu x y hr => (hknows x y).mpr (h.reported u hu x y hr)⟩
      · refine (h.covered x y ((hknows x y).mp hk)).imp_right (Or.imp_right fun hpending => ?_)
        -- the request that is taken is remembered in `resending_all`
        rcases hpending with hrequest | ⟨ack', hack', hone⟩ | hall
        · exact .inl hrequest
        · rw [hacks] at hack'
          rcases List.mem_cons.mp hack' with rfl | hack'
          · exact .inr (.inr (hresending.mpr (.inl hone)))
          · exact .inr (.inl ⟨ack', hack', hone⟩)
        · exact .inr (.inr (hresending.mpr (.inr hall)))
      · simp only [hmap]
        exact h.bounded
      · simp only [hmap]
        exact h.onGrid
  | aStarTakesUpdate =>
    simp only [step] at hs
    split at hs
    · cases hs
    · rename_i u updates hupdates
      obtain rfl := Option.some.inj hs
      obtain ⟨hmap, hrequest⟩ := takeUpdate_spec s.aStar u
      have hu : u ∈ s.updates := by rw [hupdates]; exact List.mem_cons_self
      refine ⟨⟨fun x y hk => ?_, fun x y ha => ?_, h.bounded⟩, h.onGrid, fun u' hu' =>
        h.reported u' (by rw [hupdates]; exact List.mem_cons_of_mem _ hu')⟩
      · rcases h.covered x y hk with ha | ⟨u', hu', hr⟩ | hpending
        · exact .inl ((hmap x y).mpr (.inl ha))
        · rw [hupdates] at hu'
          rcases List.mem_cons.mp hu' with rfl | hu'
          · exact .inl ((hmap x y).mpr (.inr hr))
          · exact .inr (.inl ⟨u', hu', hr⟩)
        · refine .inr (.inr (.inr ?_))
          -- a pending request leaves with the acknowledgement
          rcases hpending with hall | ⟨ack, hack, hone⟩ | hall
          · exact .inl ⟨_, List.mem_concat_self, hrequest hall⟩
          · exact .inl ⟨ack, List.mem_append_left _ hack, hone⟩
          · exact .inr hall
      · rcases (hmap x y).mp ha with ha | hr
        · exact h.sound x y ha
        · exact h.reported u hu x y hr
  | aStarRestarts pose =>
    obtain rfl := Option.some.inj hs
    exact ⟨⟨fun x y _ => .inr (.inr (.inl rfl)), fun x y ha => Bool.noConfusion ha, h.bounded⟩,
      h.onGrid, h.reported⟩

/-- **No obstacle is lost**, in any order of steps. -/
theorem no_obstacle_lost (pose : PointI) (hreach : Reaches step (fun _ _ => True) (start pose) s) :
    s.Safe :=
  (hreach.invariant (I := Net.Inv) (inv_start pose) fun _ _ _ h _ hs => inv_step h hs).toSafe

/-- An update is on its way when AStar is restarted; then comes the next scan. -/
def restartRun : List Act :=
  [.scan ⟨0, 0⟩ fun _ => ⟨1, 1⟩, .aStarTakesUpdate, .mapperTakesAck, .scan ⟨0, 0⟩ fun _ => ⟨1, 2⟩,
    .aStarRestarts ⟨0, 0⟩, .scan ⟨0, 0⟩ fun _ => ⟨2, 2⟩, .aStarTakesUpdate]

theorem no_obstacle_lost_restartRun : (follow step restartRun (start ⟨0, 0⟩)).Safe :=
  no_obstacle_lost ⟨0, 0⟩ (reaches_follow (allSteps_true _ _) rfl)

end S3RES.Mapping
