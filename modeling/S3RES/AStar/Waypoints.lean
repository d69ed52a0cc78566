import S3RES.AStar.Safety
import S3RES.CommTypes.Messages
import S3RES.Mapping.Obstacles

/-!
# The loop of AStar

`enterLoop` of `a_star.c`: an update with new obstacles makes AStar search again, a request is
answered with the next two nodes of `goal_path`, or once more with the two it has if there is
nothing new. `command` is the search of `S3RES.AStar.Search`, cut off after so many steps; a call
that has not ended by then, or has crashed, is a step that is not taken.

`waypoints_fresh`: as long as there is a way to the goal whenever AStar searches, the two points
of an answer are a step that is permitted on the map AStar has at that moment. The search may have
been long ago, but with every new obstacle the old points are given up. Distances may be any.
-/

namespace S3RES.AStar

open Mapping StepSystem

variable {R : Type*} [Zero R] [Add R] [LT R] [DecidableLT R]

/-- The goal that `main` sets. -/
def mainGoal : PointI := gridify ⟨7, 7⟩

/-- The globals of AStar. -/
structure Planner (R : Type*) extends Mapping.AStar where
  goalPath : NodeList R
  currentGoal : Option (Node R)
  nCurrentGoal : Option (Node R)
  readyToSend : Bool

/-- What `command` reads of them. -/
def planConfig (dist : ℤ → ℤ → ℤ → ℤ → R) (a : Mapping.AStar) : Config R :=
  ⟨a.obstacleMap, a.pose, mainGoal, dist⟩

/-- `command`, if it ends within so many steps: the path it leaves behind. -/
def command (c : Config R) (fuel : ℕ) (goalPath : NodeList R) : Option (NodeList R) :=
  let s := (fun s => (step c s ()).getD s)^[fuel] (start c goalPath)
  match s.point with
  | .solved | .failed => some s.goalPath
  | _ => none

/-- AStar as `main` starts it. -/
def Planner.boot (pose : PointI) : Planner R where
  toAStar := .boot pose
  goalPath := newList
  currentGoal := none
  nCurrentGoal := none
  readyToSend := false

/-- `enterLoop` reads an update. -/
def Planner.takeUpdate (dist : ℤ → ℤ → ℤ → ℤ → R) (fuel : ℕ) (p : Planner R) (u : Update) :
    Option (Planner R × Ack) :=
  let taken := p.toAStar.takeUpdate u
  if 0 < u.obstacles.length then do
    let goalPath ← command (planConfig dist taken.1) fuel p.goalPath
    some ({ p with toAStar := taken.1, goalPath := goalPath, readyToSend := true }, taken.2)
  else some ({ p with toAStar := taken.1 }, taken.2)

/-- What `degridify` makes of a node. -/
def wayPoint (n : Node R) : PointD := degridify n.x n.y

/-- The call of `commSendWaypoints` for the two goals, or for the place to stay at. -/
def sendGoals (pipe : TypedPipe) : Option (Node R) → Option (Node R) → List (WayRes ℚ)
  | some current, some next =>
    commSendWaypoints pipe (wayPoint current).x (wayPoint current).y 0 (wayPoint next).x
      (wayPoint next).y 0
  | _, _ => commSendWaypoints pipe 7 7 0 7 7 0

/-- `sendWaypoints`. -/
def Planner.sendWaypoints (pipe : TypedPipe) (p : Planner R) (forceSend : Bool) :
    Option (Planner R × List (WayRes ℚ)) :=
  if forceSend then do
    let (currentGoal, goalPath) ← pop p.goalPath
    match currentGoal with
    | none =>
      some ({ p with goalPath := goalPath, currentGoal := none, nCurrentGoal := none },
        sendGoals pipe (none : Option (Node R)) none)
    | some current =>
      let (nCurrentGoal, goalPath) ← pop goalPath
      some ({ p with goalPath := goalPath, currentGoal := some current, nCurrentGoal := nCurrentGoal },
        sendGoals pipe (some current) nCurrentGoal)
  else some (p, sendGoals pipe p.currentGoal p.nCurrentGoal)

/-- `enterLoop` reads a request. -/
def Planner.takeRequest (pipe : TypedPipe) (p : Planner R) (req : WayReq) :
    Option (Planner R × List (WayRes ℚ)) :=
  if p.readyToSend ∨ 1 = req.padding then
    { p with readyToSend := false }.sendWaypoints pipe true
  else p.sendWaypoints pipe false

/-! ### The search, cut off -/

omit [LT R] [DecidableLT R] [Add R] in
/-- What is popped is the first node, and there is none if the list has none. -/
theorem nodes_pop {list : NodeList R} (h : Proper list) :
    ∃ rest, pop list = some ((nodes list)[0]?, rest) ∧ nodes rest = (nodes list).drop 1 := by
  cases list with
  | nil => exact absurd rfl h.1
  | cons c tail =>
    obtain ⟨head, v⟩ := c
    have hrest : nodes (if tail.isEmpty then newList else tail) = nodes tail := by
      cases tail <;> rfl
    refine ⟨_, ?_, hrest.trans ?_⟩
    all_goals
      cases head with
      | some n => rfl
      | none =>
        cases tail with
        | nil => rfl
        | cons c' tail => exact absurd rfl (h.2 ⟨none, v⟩ (by simp))

variable {c : Config R} {goalPath goalPath' : NodeList R} {fuel : ℕ}

/-- A call that ends within so many steps has come to one of its two ends. -/
theorem outcome_of_command (hpath : Proper goalPath) (h : goalPath' ∈ command c fuel goalPath) :
    Proper goalPath' ∧
      (IsPath c.obstacleMap c.poseCell c.goalCell ((nodes goalPath').map cell) ∨
        goalPath' = goalPath ∧ ¬ Reachable c) := by
  have hreach : ∀ k, Reaches (step c) (fun _ _ => True) (start c goalPath)
      ((fun s => (step c s ()).getD s)^[k] (start c goalPath)) := by
    intro k
    induction k with
    | zero => exact .refl
    | succ k ih =>
      rw [Function.iterate_succ_apply']
      cases hs : step c ((fun s => (step c s ()).getD s)^[k] (start c goalPath)) () with
      | none => exact ih
      | some u => exact ih.tail trivial hs
  have houtcome := (hreach fuel).invariant (I := Outcome c goalPath) ⟨rfl, _, _, covered_start c hpath⟩
    fun s _ s' hs _ hs' => hs.step hs'
  have hproper : ∀ t, Reaches (step c) (fun _ _ => True) (start c goalPath) t →
      t.point ≠ .crashed → Proper t.goalPath := by
    intro t ht hpoint
    obtain ⟨_, _, hholds⟩ := ((sound_of_reaches hpath ht).resolve_left hpoint).lists
    exact hholds.goalPath
  simp only [command] at h
  split at h
  · rename_i hsolved
    obtain rfl := Option.some.inj h
    simp only [Outcome, hsolved] at houtcome
    exact ⟨hproper _ (hreach fuel) (by simp [hsolved]), .inl houtcome⟩
  · rename_i hfailed
    obtain rfl := Option.some.inj h
    simp only [Outcome, hfailed] at houtcome
    exact ⟨hproper _ (hreach fuel) (by simp [hfailed]), .inr houtcome⟩
  · cases h

/-! ### Fresh waypoints -/

/-- The path and, unless they are to be given up, the two goals are steps that are permitted on
the map. -/
structure Planner.Current (p : Planner R) : Prop where
  proper : Proper p.goalPath
  path : ((nodes p.goalPath).map cell).IsChain (Permitted p.obstacleMap)
  goals : p.readyToSend = false → ∀ a ∈ p.currentGoal, ∀ b ∈ p.nCurrentGoal,
    Permitted p.obstacleMap (cell a) (cell b)

/-- The point at the centre of a cell, as it is sent. -/
def centre (a : ℤ × ℤ) : Fin 3 → ℚ := ![(degridify a.1 a.2).x, (degridify a.1 a.2).y, 0]

/-- The answer is to stay at the goal, or to take a step that is permitted on the map. -/
def Fresh (obstacleMap : ℤ → ℤ → Bool) (res : WayRes ℚ) : Prop :=
  res = ⟨![7, 7, 0], ![7, 7, 0]⟩ ∨
    ∃ a b, Permitted obstacleMap a b ∧ res = ⟨centre a, centre b⟩

variable {p p' : Planner R} {dist : ℤ → ℤ → ℤ → ℤ → R} {pipe : TypedPipe}

omit [Add R] [LT R] [DecidableLT R] in
theorem current_boot (pose : PointI) : (Planner.boot pose : Planner R).Current :=
  ⟨proper_newList, .nil, fun _ a ha => by cases ha⟩

omit [Zero R] [Add R] [LT R] [DecidableLT R] in
/-- What is sent for two goals of which the step is permitted, or for none. -/
theorem fresh_sendGoals {obstacleMap : ℤ → ℤ → Bool} (hpipe : Sends .wayRes pipe)
    {current next : Option (Node R)}
    (h : ∀ a ∈ current, ∀ b ∈ next, Permitted obstacleMap (cell a) (cell b)) :
    ∃ res, sendGoals pipe current next = [res] ∧ Fresh obstacleMap res := by
  cases current with
  | none => exact ⟨_, sendOn_of_sends hpipe _, .inl rfl⟩
  | some a =>
    cases next with
    | none => exact ⟨_, sendOn_of_sends hpipe _, .inl rfl⟩
    | some b => exact ⟨_, sendOn_of_sends hpipe _, .inr ⟨cell a, cell b, h a rfl b rfl, rfl⟩⟩

omit [Add R] [LT R] [DecidableLT R] in
/-- A forced answer takes the next two nodes from the path. -/
theorem sendWaypoints_of_proper (pipe : TypedPipe) (h : Proper p.goalPath) :
    ∃ rest, Proper rest ∧ nodes rest = (nodes p.goalPath).drop 2 ∧
      p.sendWaypoints pipe true =
        some ({ p with
          goalPath := rest
          currentGoal := (nodes p.goalPath)[0]?
          nCurrentGoal := (nodes p.goalPath)[1]? },
        sendGoals pipe (nodes p.goalPath)[0]? (nodes p.goalPath)[1]?) := by
  obtain ⟨rest, hpop, hrest⟩ := nodes_pop h
  obtain ⟨rest', hpop', hrest'⟩ := nodes_pop (h.pop hpop)
  rw [hrest, List.drop_drop] at hrest'
  rw [hrest, List.getElem?_drop] at hpop'
  cases hnodes : (nodes p.goalPath)[0]? with
  | none =>
    -- nothing is left of the path
    have hnil : nodes p.goalPath = [] := List.length_eq_zero_iff.mp (by simpa using hnodes)
    refine ⟨rest, h.pop hpop, by rw [hrest, hnil]; rfl, ?_⟩
    rw [hnodes] at hpop
    rw [hnil]
    simp only [Planner.sendWaypoints, hpop, if_true, Option.bind_eq_bind, Option.bind_some,
      List.getElem?_nil]
  | some current =>
    refine ⟨rest', (h.pop hpop).pop hpop', hrest', ?_⟩
    rw [hnodes] at hpop
    simp only [Planner.sendWaypoints, hpop, hpop', if_true, Option.bind_eq_bind, Option.bind_some]

omit [Add R] [LT R] [DecidableLT R] in
/-- An answer is one message, and changes only what has to do with the path. -/
theorem takeRequest_of_proper (hpipe : Sends .wayRes pipe) (h : Proper p.goalPath) (req : WayReq) :
    ∃ p' res, p.takeRequest pipe req = some (p', [res]) ∧ p'.toAStar = p.toAStar ∧
      Proper p'.goalPath := by
  have hone : ∀ current next : Option (Node R), ∃ res, sendGoals pipe current next = [res] := by
    intro current next
    cases current with
    | none => exact ⟨_, sendOn_of_sends hpipe _⟩
    | some a => cases next with
      | none => exact ⟨_, sendOn_of_sends hpipe _⟩
      | some b => exact ⟨_, sendOn_of_sends hpipe _⟩
  rw [Planner.takeRequest]
  split_ifs
  · obtain ⟨rest, hrest, -, hsend⟩ :=
      sendWaypoints_of_proper (p := { p with readyToSend := false }) pipe h
    obtain ⟨res, hres⟩ := hone (nodes p.goalPath)[0]? (nodes p.goalPath)[1]?
    exact ⟨_, res, hsend.trans (congrArg some (Prod.ext rfl hres)), rfl, hrest⟩
  · obtain ⟨res, hres⟩ := hone p.currentGoal p.nCurrentGoal
    exact ⟨p, res, by rw [Planner.sendWaypoints, if_neg (by decide), hres], rfl, h⟩

omit [Add R] [LT R] [DecidableLT R] in
/-- Where all is current the answer is fresh, and all remains current. -/
theorem Planner.Current.takeRequest (h : p.Current) (hpipe : Sends .wayRes pipe) {req : WayReq}
    {sent : List (WayRes ℚ)} (hp : (p', sent) ∈ p.takeRequest pipe req) :
    p'.Current ∧ ∃ res, sent = [res] ∧ Fresh p.obstacleMap res := by
  rw [Planner.takeRequest] at hp
  split_ifs at hp with hforce
  · obtain ⟨rest, hrest, hnodes, hsend⟩ :=
      sendWaypoints_of_proper (p := { p with readyToSend := false }) pipe h.proper
    obtain ⟨rfl, rfl⟩ := Prod.mk.inj (Option.some.inj (hsend.symm.trans hp))
    -- the two nodes are next to each other on the path
    have hstep : ∀ a ∈ (nodes p.goalPath)[0]?, ∀ b ∈ (nodes p.goalPath)[1]?,
        Permitted p.obstacleMap (cell a) (cell b) := by
      intro a ha b hb
      have hpath := h.path
      cases hlist : nodes p.goalPath with
      | nil => simp [hlist] at ha
      | cons n ns =>
        cases ns with
        | nil => simp [hlist] at hb
        | cons n' ns =>
          rw [hlist] at ha hb hpath
          obtain rfl : n = a := Option.some.inj ha
          obtain rfl : n' = b := Option.some.inj hb
          exact (List.isChain_cons_cons.mp hpath).1
    refine ⟨⟨hrest, ?_, fun _ => hstep⟩, fresh_sendGoals hpipe hstep⟩
    change ((nodes rest).map cell).IsChain _
    rw [hnodes, List.map_drop]
    exact h.path.suffix (List.drop_suffix _ _)
  · have hready : p.readyToSend = false := by simpa using (not_or.mp hforce).1
    obtain ⟨rfl, rfl⟩ := Prod.mk.inj (Option.some.inj hp)
    exact ⟨h, fresh_sendGoals hpipe (h.goals hready)⟩

/-- There is a way to the goal whenever an update makes AStar search. -/
def Leads (dist : ℤ → ℤ → ℤ → ℤ → R) (p : Planner R) (u : Update) : Prop :=
  0 < u.obstacles.length → Reachable (planConfig dist (p.toAStar.takeUpdate u).1)

theorem Planner.Current.takeUpdate {u : Update} {ack : Ack} (h : p.Current)
    (hleads : Leads dist p u) (hp : (p', ack) ∈ p.takeUpdate dist fuel u) : p'.Current := by
  rw [Planner.takeUpdate] at hp
  split_ifs at hp with hobstacles
  · obtain ⟨goalPath, hcommand, hp⟩ := Option.bind_eq_some_iff.mp hp
    obtain ⟨rfl, -⟩ := Prod.mk.inj (Option.some.inj hp)
    obtain ⟨hproper, hpath⟩ := outcome_of_command h.proper hcommand
    have hfound := hpath.resolve_right fun hfailed => hfailed.2 (hleads hobstacles)
    exact ⟨hproper, hfound.steps, fun hready => Bool.noConfusion hready⟩
  · obtain ⟨rfl, -⟩ := Prod.mk.inj (Option.some.inj hp)
    have hnone : u.obstacles = [] := List.length_eq_zero_iff.mp (Nat.eq_zero_of_not_pos hobstacles)
    have hmap : (p.toAStar.takeUpdate u).1.obstacleMap = p.obstacleMap := by
      funext x y
      rw [Bool.eq_iff_iff, (takeUpdate_spec p.toAStar u).1 x y]
      simp [Update.Reports, hnone]
    refine ⟨h.proper, ?_, ?_⟩
    · change ((nodes p.goalPath).map cell).IsChain
        (Permitted (p.toAStar.takeUpdate u).1.obstacleMap)
      rw [hmap]
      exact h.path
    · change p.readyToSend = false → ∀ a ∈ p.currentGoal, ∀ b ∈ p.nCurrentGoal,
        Permitted (p.toAStar.takeUpdate u).1.obstacleMap (cell a) (cell b)
      rw [hmap]
      exact h.goals

/-! ### Runs -/

/-- The iterations of `enterLoop`, and a restart. -/
inductive Iteration
  | update (fuel : ℕ) (u : Update)
  | request (req : WayReq)
  | restart (pose : PointI)

/-- The loop; what it writes to the `WAY_RES` pipe is the second component. -/
def Planner.iterate (dist : ℤ → ℤ → ℤ → ℤ → R) (pipe : TypedPipe) (p : Planner R) :
    Iteration → Option (Planner R × List (WayRes ℚ))
  | .update fuel u => (p.takeUpdate dist fuel u).map fun r => (r.1, [])
  | .request req => p.takeRequest pipe req
  | .restart pose => some (.boot pose, [])

/-- The loop as a step system. -/
def Planner.step (dist : ℤ → ℤ → ℤ → ℤ → R) (pipe : TypedPipe) (p : Planner R) (i : Iteration) :
    Option (Planner R) :=
  (p.iterate dist pipe i).map (·.1)

/-- Where the iteration is a search, it can find a way. -/
def Planner.Finds (dist : ℤ → ℤ → ℤ → ℤ → R) (p : Planner R) : Iteration → Prop
  | .update _ u => Leads dist p u
  | _ => True

theorem Planner.Current.step {i : Iteration} (h : p.Current) (hpipe : Sends .wayRes pipe)
    (hfinds : p.Finds dist i) (hp : p' ∈ p.step dist pipe i) : p'.Current := by
  rw [Planner.step, Option.mem_def, Option.map_eq_some_iff] at hp
  obtain ⟨r, hr, rfl⟩ := hp
  cases i with
  | update fuel u =>
    rw [Planner.iterate, Option.map_eq_some_iff] at hr
    obtain ⟨taken, htaken, rfl⟩ := hr
    have hupdate : (taken.1, taken.2) ∈ p.takeUpdate dist fuel u := htaken
    exact h.takeUpdate hfinds hupdate
  | request req =>
    have hanswer : (r.1, r.2) ∈ p.takeRequest pipe req := hr
    exact (h.takeRequest hpipe hanswer).1
  | restart pose =>
    obtain rfl := Option.some.inj hr
    exact current_boot pose

theorem current_of_reaches (hpipe : Sends .wayRes pipe) {pose : PointI}
    (h : Reaches (Planner.step dist pipe) (fun p i => p.Finds dist i) (.boot pose) p) :
    p.Current :=
  h.invariant (I := Planner.Current) (current_boot pose) fun _ _ _ hp hfinds hp' =>
    hp.step hpipe hfinds hp'

/-- **Fresh waypoints.** In every run in which each search can find a way, whatever the distances,
with restarts, updates and requests in any order: a request is answered with one message, and what
it says is to stay at the goal or a step that is permitted on the map as it is then. -/
theorem waypoints_fresh (hpipe : Sends .wayRes pipe) {pose : PointI}
    (h : Reaches (Planner.step dist pipe) (fun p i => p.Finds dist i) (.boot pose) p)
    (req : WayReq) : ∃ p' res, p.iterate dist pipe (.request req) = some (p', [res]) ∧
      Fresh p.obstacleMap res := by
  have hcurrent := current_of_reaches hpipe h
  obtain ⟨p', res, hp', -⟩ := takeRequest_of_proper hpipe hcurrent.proper req
  obtain ⟨-, res', hres, hfresh⟩ := hcurrent.takeRequest hpipe hp'
  obtain rfl := List.singleton_injective hres
  exact ⟨p', res, hp', hfresh⟩

/-- The distance of a king's moves. -/
def kingDistance (x₁ y₁ x₂ y₂ : ℤ) : ℤ := max |x₁ - x₂| |y₁ - y₂|

/-- An update next to the goal, with an obstacle far away. -/
def nearGoal : Update := ⟨⟨44, 45⟩, [(1, 1)]⟩

theorem leads_nearGoal : Leads kingDistance (.boot ⟨0, 0⟩) nearGoal := by
  refine fun _ => ⟨[(44, 45), (45, 45)], by decide +kernel, by decide +kernel, ?_⟩
  refine .cons_cons ⟨by decide, ?_, by decide +kernel, fun _ hne => absurd rfl hne⟩ (.singleton _)
  simp [Near]

/-- The way to the goal is found and sent. -/
theorem waypoints_fresh_nearGoal :
    ∃ p' res, (follow (Planner.step kingDistance ⟨.wayRes, 0, 4⟩) [.update 11 nearGoal]
        (.boot ⟨0, 0⟩)).iterate kingDistance ⟨.wayRes, 0, 4⟩ (.request ⟨0⟩) = some (p', [res]) ∧
      Fresh (follow (Planner.step kingDistance ⟨.wayRes, 0, 4⟩) [.update 11 nearGoal]
        (.boot ⟨0, 0⟩)).obstacleMap res := by
  refine waypoints_fresh (by decide) (reaches_follow ?_ (by decide +kernel)) ⟨0⟩
  exact ⟨leads_nearGoal, fun _ _ => trivial⟩

end S3RES.AStar
