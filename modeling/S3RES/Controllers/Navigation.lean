import S3RES.AStar.Waypoints
import S3RES.Controllers.Driving

/-!
# Mapper, AStar and ArtPot

The three controllers with the pipes between them: updates and acknowledgements between Mapper and
AStar, requests and answers between ArtPot and AStar. An iteration of a loop that finds two of its
pipes readable is two steps here, and AStar can be killed and started again, also between the read
of a request and the write of the answer (`plannerDies`). What ArtPot sends to the robot leaves the
system.

The system is put together from two others: without ArtPot it is that of `S3RES.Mapping.Obstacles`
(`project_mapping`), and AStar runs through its loop (`project_planner`).

`way_is_clear`: an answer leads to no obstacle that Mapper has recorded, unless AStar is yet to be
told. `one_request`: there is never more than one request or answer under way, and what is awaited
is always there. `lost_request`: but the request that AStar takes with it when it dies is never
made again.
-/

namespace S3RES.Navigation

open Mapping (Mapper Update Ack PointI PointD rangeCount)
open AStar (Planner)
open ArtPot (Libm Indexes Globals)
open StepSystem

/-- The functions of `math.h`, and the pipes of ArtPot and AStar that are sent on. -/
structure Wiring where
  libm : Libm ℚ
  pipes : ℤ → TypedPipe
  ix : Indexes
  wayReq : Sends .wayReq (pipes ix.wayReq)
  wayResPipe : TypedPipe
  wayRes : Sends .wayRes wayResPipe

/-- The controllers, and what is in the pipes between them, the oldest first. -/
structure Net (R : Type*) where
  mapper : Mapper
  planner : Planner R
  artPot : Globals ℚ
  updates : List Update
  acks : List Ack
  wayReqs : List WayReq
  wayRes : List (WayRes ℚ)

/-- What can happen. -/
inductive Act
  | mapperTakesData (pose : PointD) (points : Fin rangeCount → PointD)
  | mapperTakesAck
  | plannerTakesUpdate (fuel : ℕ)
  | plannerTakesRequest
  | plannerRestarts (pose : PointI)
  /-- AStar is killed when it has read a request. -/
  | plannerDies (pose : PointI)
  | artPotTakesData (msg : RangePoseData ℚ)
  | artPotTakesWaypoints

variable {R : Type*} [Zero R] [Add R] [LT R] [DecidableLT R]

/-- One step; a message can be taken if there is one. -/
def step (w : Wiring) (dist : ℤ → ℤ → ℤ → ℤ → R) (s : Net R) : Act → Option (Net R)
  | .mapperTakesData pose points =>
    let mapper := Mapping.updateMap s.mapper pose points
    some { s with mapper := mapper, updates := s.updates ++ [mapper.sendMsg] }
  | .mapperTakesAck =>
    match s.acks with
    | [] => none
    | ack :: acks => some { s with mapper := s.mapper.takeAck ack, acks := acks }
  | .plannerTakesUpdate fuel =>
    match s.updates with
    | [] => none
    | u :: updates =>
      (s.planner.takeUpdate dist fuel u).map fun r =>
        { s with planner := r.1, updates := updates, acks := s.acks ++ [r.2] }
  | .plannerTakesRequest =>
    match s.wayReqs with
    | [] => none
    | req :: wayReqs =>
      (s.planner.takeRequest w.wayResPipe req).map fun r =>
        { s with planner := r.1, wayReqs := wayReqs, wayRes := s.wayRes ++ r.2 }
  | .plannerRestarts pose => some { s with planner := .boot pose }
  | .plannerDies pose =>
    match s.wayReqs with
    | [] => none
    | _ :: wayReqs => some { s with planner := .boot pose, wayReqs := wayReqs }
  | .artPotTakesData msg =>
    let taken := ArtPot.takeData w.libm w.pipes w.ix s.artPot msg
    some { s with artPot := taken.1, wayReqs := s.wayReqs ++ taken.2.wayReqs }
  | .artPotTakesWaypoints =>
    match s.wayRes with
    | [] => none
    | msg :: wayRes => some { s with artPot := ArtPot.takeWaypoints s.artPot msg, wayRes := wayRes }

/-- All have just been started. -/
def start (pose : PointI) : Net R where
  mapper := (Mapping.start pose).mapper
  planner := .boot pose
  artPot := ArtPot.start
  updates := []
  acks := []
  wayReqs := []
  wayRes := []

variable {w : Wiring} {dist : ℤ → ℤ → ℤ → ℤ → R} {s s' t : Net R} {act : Act} {pose : PointI}

/-- What each step does. -/
inductive Effect (w : Wiring) (dist : ℤ → ℤ → ℤ → ℤ → R) (s : Net R) : Act → Net R → Prop
  | scan (pose : PointD) (points : Fin rangeCount → PointD) :
      Effect w dist s (.mapperTakesData pose points) { s with
        mapper := Mapping.updateMap s.mapper pose points
        updates := s.updates ++ [(Mapping.updateMap s.mapper pose points).sendMsg] }
  | ack {ack : Ack} {acks : List Ack} (h : s.acks = ack :: acks) :
      Effect w dist s .mapperTakesAck { s with mapper := s.mapper.takeAck ack, acks := acks }
  | update {fuel : ℕ} {u : Update} {updates : List Update} {r : Planner R × Ack}
      (h : s.updates = u :: updates) (hr : r ∈ s.planner.takeUpdate dist fuel u) :
      Effect w dist s (.plannerTakesUpdate fuel)
        { s with planner := r.1, updates := updates, acks := s.acks ++ [r.2] }
  | request {req : WayReq} {wayReqs : List WayReq} {r : Planner R × List (WayRes ℚ)}
      (h : s.wayReqs = req :: wayReqs) (hr : r ∈ s.planner.takeRequest w.wayResPipe req) :
      Effect w dist s .plannerTakesRequest
        { s with planner := r.1, wayReqs := wayReqs, wayRes := s.wayRes ++ r.2 }
  | restart (pose : PointI) : Effect w dist s (.plannerRestarts pose) { s with planner := .boot pose }
  | death (pose : PointI) {req : WayReq} {wayReqs : List WayReq} (h : s.wayReqs = req :: wayReqs) :
      Effect w dist s (.plannerDies pose) { s with planner := .boot pose, wayReqs := wayReqs }
  | data (msg : RangePoseData ℚ) :
      Effect w dist s (.artPotTakesData msg) { s with
        artPot := (ArtPot.takeData w.libm w.pipes w.ix s.artPot msg).1
        wayReqs := s.wayReqs ++ (ArtPot.takeData w.libm w.pipes w.ix s.artPot msg).2.wayReqs }
  | waypoints {msg : WayRes ℚ} {wayRes : List (WayRes ℚ)} (h : s.wayRes = msg :: wayRes) :
      Effect w dist s .artPotTakesWaypoints
        { s with artPot := ArtPot.takeWaypoints s.artPot msg, wayRes := wayRes }

theorem effect_of_step (hs : s' ∈ step w dist s act) : Effect w dist s act s' := by
  cases act with
  | mapperTakesData pose points =>
    obtain rfl := Option.some.inj hs
    exact .scan pose points
  | mapperTakesAck =>
    cases h : s.acks with
    | nil => simp [step, h] at hs
    | cons ack acks =>
      simp only [step, h] at hs
      obtain rfl := Option.some.inj hs
      exact .ack h
  | plannerTakesUpdate fuel =>
    cases h : s.updates with
    | nil => simp [step, h] at hs
    | cons u updates =>
      simp only [step, h] at hs
      obtain ⟨r, hr, rfl⟩ := Option.map_eq_some_iff.mp hs
      exact .update h hr
  | plannerTakesRequest =>
    cases h : s.wayReqs with
    | nil => simp [step, h] at hs
    | cons req wayReqs =>
      simp only [step, h] at hs
      obtain ⟨r, hr, rfl⟩ := Option.map_eq_some_iff.mp hs
      exact .request h hr
  | plannerRestarts pose =>
    obtain rfl := Option.some.inj hs
    exact .restart pose
  | plannerDies pose =>
    cases h : s.wayReqs with
    | nil => simp [step, h] at hs
    | cons req wayReqs =>
      simp only [step, h] at hs
      obtain rfl := Option.some.inj hs
      exact .death pose h
  | artPotTakesData msg =>
    obtain rfl := Option.some.inj hs
    exact .data msg
  | artPotTakesWaypoints =>
    cases h : s.wayRes with
    | nil => simp [step, h] at hs
    | cons msg wayRes =>
      simp only [step, h] at hs
      obtain rfl := Option.some.inj hs
      exact .waypoints h

/-! ### The parts of the system -/

/-- Mapper and AStar. -/
def toMapping (s : Net R) : Mapping.Net := ⟨s.mapper, s.planner.toAStar, s.updates, s.acks⟩

/-- What AStar takes from an update besides the path. -/
theorem toAStar_takeUpdate {p : Planner R} {fuel : ℕ} {u : Update} {r : Planner R × Ack}
    (h : r ∈ p.takeUpdate dist fuel u) :
    (r.1.toAStar, r.2) = p.toAStar.takeUpdate u := by
  rw [Planner.takeUpdate] at h
  split_ifs at h
  · obtain ⟨goalPath, -, h⟩ := Option.bind_eq_some_iff.mp h
    obtain rfl := Option.some.inj h
    rfl
  · obtain rfl := Option.some.inj h
    rfl

omit [Add R] [LT R] [DecidableLT R] in
/-- A request does not change what AStar knows. -/
theorem toAStar_takeRequest {p : Planner R} {pipe : TypedPipe} {req : WayReq}
    {r : Planner R × List (WayRes ℚ)} (h : r ∈ p.takeRequest pipe req) :
    r.1.toAStar = p.toAStar := by
  rw [Planner.takeRequest] at h
  split_ifs at h
  · rw [Planner.sendWaypoints, if_pos rfl] at h
    obtain ⟨⟨current, rest⟩, -, h⟩ := Option.bind_eq_some_iff.mp h
    cases current with
    | none =>
      obtain rfl := Option.some.inj h
      rfl
    | some current =>
      obtain ⟨⟨next, rest'⟩, -, h⟩ := Option.bind_eq_some_iff.mp h
      obtain rfl := Option.some.inj h
      rfl
  · obtain rfl := Option.some.inj h
    rfl

/-- A step is one of Mapper and AStar, or leaves them alone. -/
theorem step_toMapping (hs : s' ∈ step w dist s act) : toMapping s' = toMapping s ∨
    ∃ act', toMapping s' ∈ Mapping.step (toMapping s) act' := by
  cases effect_of_step hs with
  | scan pose points => exact .inr ⟨.scan pose points, rfl⟩
  | ack h => exact .inr ⟨.mapperTakesAck, by simp [Mapping.step, toMapping, h]⟩
  | update h hr =>
    refine .inr ⟨.aStarTakesUpdate, ?_⟩
    simp [Mapping.step, toMapping, h, ← toAStar_takeUpdate hr]
  | request h hr => exact .inl (by simp [toMapping, toAStar_takeRequest hr])
  | restart pose => exact .inr ⟨.aStarRestarts pose, rfl⟩
  | death pose h => exact .inr ⟨.aStarRestarts pose, rfl⟩
  | data | waypoints => exact .inl rfl

/-- Mapper and AStar run as they do without ArtPot. -/
theorem project_mapping {ok : Net R → Act → Prop} (h : Reaches (step w dist) ok (start pose) s) :
    Reaches Mapping.step (fun _ _ => True) (Mapping.start pose) (toMapping s) := by
  refine h.project (f := toMapping) fun t a u _ hu => ?_
  exact (step_toMapping hu).imp_right fun ⟨act', hact'⟩ => ⟨act', trivial, hact'⟩

/-- Whenever AStar searches there is a way to the goal. -/
def Finds (dist : ℤ → ℤ → ℤ → ℤ → R) (s : Net R) : Act → Prop
  | .plannerTakesUpdate _ => ∀ u ∈ s.updates.head?, AStar.Leads dist s.planner u
  | _ => True

/-- A step of AStar is one of its loop. -/
theorem step_planner (hs : s' ∈ step w dist s act) (hfinds : Finds dist s act) :
    s'.planner = s.planner ∨ ∃ i, s.planner.Finds dist i ∧
      s'.planner ∈ s.planner.step dist w.wayResPipe i := by
  cases effect_of_step hs with
  | @update fuel u updates r h hr =>
    refine .inr ⟨.update fuel u, hfinds u (by rw [h]; rfl), ?_⟩
    simp [Planner.step, Planner.iterate, Option.mem_def.mp hr]
  | @request req wayReqs r h hr =>
    refine .inr ⟨.request req, trivial, ?_⟩
    simp [Planner.step, Planner.iterate, Option.mem_def.mp hr]
  | restart pose => exact .inr ⟨.restart pose, trivial, rfl⟩
  | death pose h => exact .inr ⟨.restart pose, trivial, rfl⟩
  | scan | ack | data | waypoints => exact .inl rfl

/-- AStar runs through its loop. -/
theorem project_planner (h : Reaches (step w dist) (Finds dist) (start pose) s) :
    Reaches (Planner.step dist w.wayResPipe) (fun p i => p.Finds dist i) (.boot pose) s.planner :=
  h.project (f := Net.planner) fun _ _ _ hfinds hu => step_planner hu hfinds

/-! ### Clear ways -/

/-- The second point of an answer is the centre of a cell that is no obstacle for Mapper, unless
AStar is yet to be told of it. -/
def Clear (s : Net R) (res : WayRes ℚ) : Prop :=
  res = ⟨![7, 7, 0], ![7, 7, 0]⟩ ∨ ∃ a b, res = ⟨AStar.centre a, AStar.centre b⟩ ∧
    AStar.Permitted s.planner.obstacleMap a b ∧
    (s.mapper.Knows b.1 b.2 →
      (∃ u ∈ s.updates, u.Reports b.1 b.2) ∨ (toMapping s).ResendPending)

/-- **Clear ways.** In every order of steps in which each search can find a way, with AStar being
restarted at any time: what AStar answers is to stay at the goal, or leads to no obstacle that
Mapper has recorded, unless it is in an update that is under way or all are going to be sent. -/
theorem way_is_clear (h : Reaches (step w dist) (Finds dist) (start pose) s)
    (hs : s' ∈ step w dist s .plannerTakesRequest) :
    ∃ res, s'.wayRes = s.wayRes ++ [res] ∧ Clear s res := by
  have hsafe := ((project_mapping h).invariant (I := Mapping.Net.Inv) (Mapping.inv_start pose)
    fun _ _ _ h _ hs => Mapping.inv_step h hs).toSafe
  have hcurrent := AStar.current_of_reaches w.wayRes (project_planner h)
  cases effect_of_step hs with
  | @request req wayReqs r hreqs hr =>
    have hanswer : (r.1, r.2) ∈ s.planner.takeRequest w.wayResPipe req := hr
    obtain ⟨-, res, hres, hfresh⟩ := hcurrent.takeRequest w.wayRes hanswer
    refine ⟨res, by rw [hres], hfresh.imp_right ?_⟩
    rintro ⟨a, b, hstep, rfl⟩
    refine ⟨a, b, rfl, hstep, fun hknows => (hsafe.covered b.1 b.2 hknows).resolve_left ?_⟩
    -- the cell is free on AStar's map
    exact Bool.eq_false_iff.mp hstep.2.2.1

/-- ArtPot with a pipe to the planner. -/
def someWiring : Wiring where
  libm := ⟨id, fun _ _ => 0, id, id, 3⟩
  pipes i := ⟨if i = 0 then .rangePoseData else .wayReq, 0, 4⟩
  ix := ⟨0, 0, 2, 3⟩
  wayReq := by decide
  wayResPipe := ⟨.wayRes, 0, 5⟩
  wayRes := by decide

/-- Next to the goal Mapper sees an obstacle far away, AStar is told of it and ArtPot asks. -/
def asked : List Act :=
  [.mapperTakesData ⟨67 / 10, 7⟩ fun _ => ⟨-15 / 2, -15 / 2⟩, .plannerTakesUpdate 11,
    .artPotTakesData ⟨0, 0, 0⟩]

/-- What AStar is told. -/
theorem sendMsg_nearGoal : (Mapping.updateMap (Mapping.start ⟨0, 0⟩).mapper ⟨67 / 10, 7⟩
    fun _ => ⟨-15 / 2, -15 / 2⟩).sendMsg = AStar.nearGoal := by
  have hpose : (Mapping.updateMap (Mapping.start ⟨0, 0⟩).mapper ⟨67 / 10, 7⟩
      fun _ => ⟨-15 / 2, -15 / 2⟩).sendMsg.pose = AStar.nearGoal.pose := by decide +kernel
  have hobstacles : (Mapping.updateMap (Mapping.start ⟨0, 0⟩).mapper ⟨67 / 10, 7⟩
      fun _ => ⟨-15 / 2, -15 / 2⟩).sendMsg.obstacles = AStar.nearGoal.obstacles := by decide +kernel
  exact congrArg₂ Update.mk hpose hobstacles

/-- The answer that follows. -/
theorem way_is_clear_asked : ∃ (s' : Net ℤ) (res : WayRes ℚ),
    s'.wayRes = (follow (step someWiring AStar.kingDistance) asked (start ⟨0, 0⟩)).wayRes ++ [res] ∧
      Clear (follow (step someWiring AStar.kingDistance) asked (start ⟨0, 0⟩)) res := by
  obtain ⟨s', hs'⟩ := Option.isSome_iff_exists.mp (show (step someWiring AStar.kingDistance
    (follow (step someWiring AStar.kingDistance) asked (start ⟨0, 0⟩))
      .plannerTakesRequest).isSome from by decide +kernel)
  have hfinds : ∀ u ∈ [(Mapping.updateMap (Mapping.start ⟨0, 0⟩).mapper ⟨67 / 10, 7⟩
      fun _ => ⟨-15 / 2, -15 / 2⟩).sendMsg].head?,
      AStar.Leads AStar.kingDistance (.boot ⟨0, 0⟩) u := by
    rw [sendMsg_nearGoal]
    rintro u hu
    obtain rfl := Option.some.inj hu
    exact AStar.leads_nearGoal
  have hall : AllSteps (step someWiring AStar.kingDistance) (Finds AStar.kingDistance) asked
      (start ⟨0, 0⟩) := by
    refine ⟨trivial, fun t ht => ?_⟩
    obtain rfl := Option.some.inj ht
    exact ⟨hfinds, fun _ _ => ⟨trivial, fun _ _ => trivial⟩⟩
  exact ⟨s', way_is_clear (reaches_follow hall (by decide +kernel)) hs'⟩

/-! ### Requests and answers -/

/-- What the data does to ArtPot: a request is made unless one is awaited, and the goal changes at
most to the next one. -/
theorem takeData_spec (w : Wiring) (a : Globals ℚ) (msg : RangePoseData ℚ) :
    (ArtPot.takeData w.libm w.pipes w.ix a msg).1.wayPending = true ∧
      (ArtPot.takeData w.libm w.pipes w.ix a msg).2.wayReqs.length =
        (if a.wayPending then 0 else 1) ∧
      (ArtPot.takeData w.libm w.pipes w.ix a msg).1.nextGoal = a.nextGoal ∧
      ((ArtPot.takeData w.libm w.pipes w.ix a msg).1.goal = a.goal ∨
        (ArtPot.takeData w.libm w.pipes w.ix a msg).1.goal = a.nextGoal) := by
  obtain ⟨hpending, hnext, hgoal⟩ :
      (ArtPot.tryNext w.libm (ArtPot.copyRanger a msg)).1.wayPending = a.wayPending ∧
        (ArtPot.tryNext w.libm (ArtPot.copyRanger a msg)).1.nextGoal = a.nextGoal ∧
        ((ArtPot.tryNext w.libm (ArtPot.copyRanger a msg)).1.goal = a.goal ∨
          (ArtPot.tryNext w.libm (ArtPot.copyRanger a msg)).1.goal = a.nextGoal) := by
    rw [ArtPot.tryNext]
    split_ifs
    · exact ⟨rfl, rfl, .inr rfl⟩
    · exact ⟨rfl, rfl, .inl rfl⟩
  simp only [ArtPot.takeData, ArtPot.command, ArtPot.request, hpending]
  by_cases hwait : a.wayPending = true
  · simp only [if_pos hwait]
    exact ⟨hpending.trans hwait, rfl, hnext, hgoal⟩
  · simp only [if_neg hwait]
    refine ⟨trivial, ?_, hnext, hgoal⟩
    rw [commSendWaypointRequest, sendOn_of_sends w.wayReq, List.length_singleton]

/-- There is always a path to take nodes from. -/
theorem proper_step (h : Mapping.Proper s.planner.goalPath) (hs : s' ∈ step w dist s act) :
    Mapping.Proper s'.planner.goalPath := by
  cases effect_of_step hs with
  | @update fuel u updates r _ hr =>
    have hr' := Option.mem_def.mp hr
    rw [Planner.takeUpdate] at hr'
    split_ifs at hr'
    · obtain ⟨goalPath, hcommand, hr'⟩ := Option.bind_eq_some_iff.mp hr'
      obtain rfl := Option.some.inj hr'
      exact (AStar.outcome_of_command h hcommand).1
    · obtain rfl := Option.some.inj hr'
      exact h
  | @request req wayReqs r _ hr =>
    obtain ⟨p', res, hp', -, hproper⟩ := AStar.takeRequest_of_proper w.wayRes h req
    obtain rfl := Option.some.inj (hp'.symm.trans hr)
    exact hproper
  | restart | death => exact Mapping.proper_newList
  | scan | ack | data | waypoints => exact h

/-- AStar dies with a request. -/
def Act.IsDeath : Act → Prop
  | .plannerDies _ => True
  | _ => False

/-- What is awaited is under way, as a request or as an answer, and nothing else is. -/
def Balanced (s : Net R) : Prop :=
  s.wayReqs.length + s.wayRes.length = if s.artPot.wayPending then 1 else 0

/-- What is awaited was lost. -/
def Lost (s : Net R) : Prop :=
  s.artPot.wayPending = true ∧ s.wayReqs = [] ∧ s.wayRes = []

theorem Balanced.step (h : Balanced s) (hs : s' ∈ step w dist s act) (hdeath : ¬ act.IsDeath)
    (hproper : Mapping.Proper s.planner.goalPath) : Balanced s' := by
  cases effect_of_step hs with
  | @request req wayReqs r hreqs hr =>
    obtain ⟨p', res, hp', -⟩ := AStar.takeRequest_of_proper w.wayRes hproper req
    obtain rfl := Option.some.inj (hp'.symm.trans hr)
    rw [Balanced, hreqs] at h
    simp only [Balanced, List.length_append, List.length_cons, List.length_nil] at h ⊢
    omega
  | death => exact absurd trivial hdeath
  | data msg =>
    obtain ⟨hpending, hlength, -⟩ := takeData_spec w s.artPot msg
    simp only [Balanced, List.length_append, hpending, hlength] at h ⊢
    split_ifs at h ⊢ <;> omega
  | @waypoints msg wayRes hres =>
    simp only [Balanced, hres, List.length_cons] at h
    split_ifs at h
    simp only [Balanced, ArtPot.takeWaypoints, Bool.false_eq_true, if_false]
    omega
  | scan | ack | update | restart => exact h

/-- A request is lost for good: no step makes another. -/
theorem Lost.step (h : Lost s) (hs : s' ∈ step w dist s act) :
    Lost s' ∧ s'.artPot.nextGoal = s.artPot.nextGoal ∧
      (s'.artPot.goal = s.artPot.goal ∨ s'.artPot.goal = s.artPot.nextGoal) := by
  obtain ⟨hpending, hreqs, hres⟩ := h
  cases effect_of_step hs with
  | request hreqs' | death _ hreqs' => simp [hreqs] at hreqs'
  | waypoints hres' => simp [hres] at hres'
  | data msg =>
    obtain ⟨hpending', hlength, hnext, hgoal⟩ := takeData_spec w s.artPot msg
    rw [if_pos hpending, List.length_eq_zero_iff] at hlength
    exact ⟨⟨hpending', by simp [hreqs, hlength], hres⟩, hnext, hgoal⟩
  | scan | ack | update | restart => exact ⟨⟨hpending, hreqs, hres⟩, rfl, .inl rfl⟩

/-- A request that AStar takes with it was the only thing under way. -/
theorem Balanced.death (h : Balanced s)
    (hs : s' ∈ Navigation.step w dist s (.plannerDies pose)) :
    Lost s' ∧ s'.artPot = s.artPot := by
  cases effect_of_step hs with
  | @death _ req wayReqs hreqs =>
    simp only [Balanced, hreqs, List.length_cons] at h
    split_ifs at h with hpending
    · have hnone : wayReqs.length = 0 ∧ s.wayRes.length = 0 := by omega
      exact ⟨⟨hpending, List.length_eq_zero_iff.mp hnone.1, List.length_eq_zero_iff.mp hnone.2⟩, rfl⟩
    · omega

/-- What is awaited is under way or was lost. -/
theorem balanced_or_lost (h : Reaches (step w dist) (fun _ _ => True) (start pose) s) :
    Balanced s ∨ Lost s := by
  refine (h.invariant
    (I := fun s => Mapping.Proper s.planner.goalPath ∧ (Balanced s ∨ Lost s))
    ⟨Mapping.proper_newList, .inl rfl⟩ fun t act u ht _ hu => ?_).2
  refine ⟨proper_step ht.1 hu, ?_⟩
  rcases ht.2 with hbalanced | hlost
  · cases act with
    | plannerDies pose' => exact .inr (hbalanced.death hu).1
    | _ => exact .inl (hbalanced.step hu (fun h => h) ht.1)
  · exact .inr (hlost.step hu).1

/-- **One request.** In every order of steps, with AStar being restarted at any time but not
between a request and its answer: ArtPot waits for exactly what is under way, so that there is never
more than one request or answer, and while it waits AStar or ArtPot can go on with it. -/
theorem one_request (h : Reaches (step w dist) (fun _ act => ¬ act.IsDeath) (start pose) s) :
    Balanced s ∧ (s.artPot.wayPending = true →
      (∃ s' ∈ step w dist s .plannerTakesRequest, s'.wayRes ≠ []) ∨
        ∃ s' ∈ step w dist s .artPotTakesWaypoints, s'.artPot.wayPending = false) := by
  obtain ⟨hproper, hbalanced⟩ := h.invariant
    (I := fun s => Mapping.Proper s.planner.goalPath ∧ Balanced s)
    ⟨Mapping.proper_newList, rfl⟩ fun t act u ht hdeath hu =>
      ⟨proper_step ht.1 hu, ht.2.step hu hdeath ht.1⟩
  refine ⟨hbalanced, fun hpending => ?_⟩
  rw [Balanced, if_pos hpending] at hbalanced
  cases hreqs : s.wayReqs with
  | cons req wayReqs =>
    obtain ⟨p', res, hp', -⟩ := AStar.takeRequest_of_proper w.wayRes hproper req
    refine .inl ⟨{ s with planner := p', wayReqs := wayReqs, wayRes := s.wayRes ++ [res] }, ?_,
      by simp⟩
    simp [step, hreqs, hp']
  | nil =>
    cases hres : s.wayRes with
    | nil => simp [hreqs, hres] at hbalanced
    | cons msg wayRes =>
      refine .inr ⟨{ s with artPot := ArtPot.takeWaypoints s.artPot msg, wayRes := wayRes }, ?_, rfl⟩
      simp [step, hres]

/-- When ArtPot has asked, AStar can answer. -/
theorem one_request_asked :
    Balanced (follow (step someWiring AStar.kingDistance) asked (start ⟨0, 0⟩)) ∧
      ((follow (step someWiring AStar.kingDistance) asked (start ⟨0, 0⟩)).artPot.wayPending = true →
        (∃ s' ∈ step someWiring AStar.kingDistance
          (follow (step someWiring AStar.kingDistance) asked (start ⟨0, 0⟩)) .plannerTakesRequest,
            s'.wayRes ≠ []) ∨
        ∃ s' ∈ step someWiring AStar.kingDistance
          (follow (step someWiring AStar.kingDistance) asked (start ⟨0, 0⟩)) .artPotTakesWaypoints,
            s'.artPot.wayPending = false) :=
  one_request (reaches_follow ⟨id, fun _ _ => ⟨id, fun _ _ => ⟨id, fun _ _ => trivial⟩⟩⟩
    (by decide +kernel))

/-- **A lost request.** When AStar dies with a request, in every run from there on ArtPot goes on
waiting, no request is made again, and the robot has no other goals than the two that ArtPot had. -/
theorem lost_request {pose' : PointI}
    (h : Reaches (step w dist) (fun _ _ => True) (start pose) s)
    (hs : s' ∈ step w dist s (.plannerDies pose'))
    (ht : Reaches (step w dist) (fun _ _ => True) s' t) :
    Lost t ∧ t.artPot.nextGoal = s.artPot.nextGoal ∧
      (t.artPot.goal = s.artPot.goal ∨ t.artPot.goal = s.artPot.nextGoal) := by
  have hbalanced : Balanced s := by
    refine (balanced_or_lost h).resolve_right fun hlost => ?_
    cases effect_of_step hs with
    | death _ hreqs => simp [hlost.2.1] at hreqs
  obtain ⟨hlost, hartPot⟩ := hbalanced.death hs
  refine ht.invariant (I := fun t => Lost t ∧ t.artPot.nextGoal = s.artPot.nextGoal ∧
    (t.artPot.goal = s.artPot.goal ∨ t.artPot.goal = s.artPot.nextGoal)) ?_ ?_
  · rw [hartPot]
    exact ⟨hlost, rfl, .inl rfl⟩
  · rintro t a u ⟨hlost, hnext, hgoal⟩ - hu
    obtain ⟨hlost', hnext', hgoal'⟩ := hlost.step hu
    refine ⟨hlost', hnext'.trans hnext, ?_⟩
    rcases hgoal' with hsame | hmoved
    · exact hsame ▸ hgoal
    · exact .inr (hmoved.trans hnext)

/-- It dies with the request. -/
theorem lost_request_asked : ∃ s' ∈ step someWiring AStar.kingDistance
    (follow (step someWiring AStar.kingDistance) asked (start ⟨0, 0⟩)) (.plannerDies ⟨0, 0⟩),
      Lost s' := by
  obtain ⟨s', hs'⟩ := Option.isSome_iff_exists.mp (show (step someWiring AStar.kingDistance
    (follow (step someWiring AStar.kingDistance) asked (start ⟨0, 0⟩))
      (.plannerDies ⟨0, 0⟩)).isSome from by decide +kernel)
  exact ⟨s', hs', (lost_request (reaches_follow (allSteps_true _ _) (by decide +kernel)) hs'
    .refl).1⟩

end S3RES.Navigation
