import S3RES.AStar.Paths

/-!
# The search finds a shortest path

The open nodes are sorted by their cost plus estimate, every node that the search keeps has back
links that lead to the pose, and the costs are those of a best-first search whose edges are due
as long as `command` has not come to the neighbour (`Informed`). So `goal_path` is a shortest
permitted path when the solution branch is reached (`goalPath_shortest`).
-/

namespace S3RES.AStar

open Mapping StepSystem

variable {obstacleMap : ℤ → ℤ → Bool} {pose goal : PointI} {s s' t : Search ℝ}
  {opened closed es : List (Node ℝ × ℝ)} {e n : Node ℝ × ℝ} {goalPath : NodeList ℝ}

/-- The nodes of a list as cells with their costs. -/
def costs (es : List (Node ℝ × ℝ)) : Set ((ℤ × ℤ) × ℝ) :=
  {p | ∃ e ∈ es, p = (cell e.1, e.1.gScore)}

/-- The steps to neighbours that `command` has not come to. -/
def pending (s : Search ℝ) : Set ((ℤ × ℤ) × (ℤ × ℤ)) :=
  {d | ∃ current neighbors, s.point = .expand current neighbors ∧
    ∃ n ∈ nodes neighbors, d = (cell current, cell n)}

/-- The value that an open node is sorted by. -/
noncomputable def fScore (goal : PointI) (n : Node ℝ) : ℝ :=
  n.gScore + distance (cell n) (goal.x, goal.y)

/-- What the search knows. -/
structure Informed (obstacleMap : ℤ → ℤ → Bool) (pose goal : PointI) (s : Search ℝ)
    (opened closed : List (Node ℝ × ℝ)) : Prop where
  explored : Explored (config obstacleMap pose goal) s opened closed
  sorted : opened.Pairwise fun a b => a.2 ≤ b.2
  value : ∀ e ∈ opened, e.2 = fScore goal e.1
  traced : ∀ e ∈ opened, Traced obstacleMap (pose.x, pose.y) e.1
  tracedExpanded : ∀ n ∈ s.expanded, Traced obstacleMap (pose.x, pose.y) n
  settled : ∀ e ∈ closed, e.1 ∈ s.expanded
  frontier : BestFirst.Frontier (problem obstacleMap pose goal) (costs opened) (costs closed)
    (pending s)

/-- What `command` is to leave in `goal_path`. -/
def Shortest (obstacleMap : ℤ → ℤ → Bool) (pose goal : PointI) (path : List (ℤ × ℤ)) : Prop :=
  IsPath obstacleMap (pose.x, pose.y) (goal.x, goal.y) path ∧
    ∀ path', IsPath obstacleMap (pose.x, pose.y) (goal.x, goal.y) path' →
      pathLength path ≤ pathLength path'

/-! ### The open list -/

theorem sorted_insertNode {v : ℝ} (h : es.Pairwise fun a b => a.2 ≤ b.2) :
    (insertNode es n.1 v).Pairwise fun a b => a.2 ≤ b.2 := by
  induction es with
  | nil => exact List.pairwise_singleton _ _
  | cons e es ih =>
    obtain ⟨he, hes⟩ := List.pairwise_cons.mp h
    rw [insertNode_cons]
    split
    · rename_i hlt
      refine List.pairwise_cons.mpr ⟨fun m hm => ?_, h⟩
      rcases List.mem_cons.mp hm with rfl | hm
      · exact hlt.le
      · exact hlt.le.trans (he m hm)
    · rename_i hle
      refine List.pairwise_cons.mpr ⟨fun m hm => ?_, ih hes⟩
      rcases mem_insertNode.mp hm with rfl | hm
      · exact not_lt.mp hle
      · exact he m hm

theorem costs_insertNode (es : List (Node ℝ × ℝ)) (n : Node ℝ) (v : ℝ) :
    costs (insertNode es n v) = insert (cell n, n.gScore) (costs es) := by
  ext p
  constructor
  · rintro ⟨e, he, rfl⟩
    rcases mem_insertNode.mp he with rfl | he
    · exact .inl rfl
    · exact .inr ⟨e, he, rfl⟩
  · rintro (rfl | ⟨e, he, rfl⟩)
    · exact ⟨(n, v), mem_insertNode.mpr (.inl rfl), rfl⟩
    · exact ⟨e, mem_insertNode.mpr (.inr he), rfl⟩

/-- An open node that is not of the cell stays when the cell is taken out. -/
theorem mem_costs_eraseP {u : ℤ × ℤ} {c : ℝ} (h : (u, c) ∈ costs opened) (hne : u ≠ cell n.1) :
    (u, c) ∈ costs (opened.eraseP fun e => nodeEqauls e.1 n.1) := by
  obtain ⟨e, he, hp⟩ := h
  obtain ⟨rfl, rfl⟩ := Prod.mk.inj hp
  have hnot : ¬ (fun e : Node ℝ × ℝ => nodeEqauls e.1 n.1) e = true := fun hsame =>
    hne (nodeEqauls_iff_cell.mp hsame)
  refine ⟨e, ?_, rfl⟩
  rw [List.mem_eraseP_of_neg]
  · exact he
  · exact hnot

theorem pending_head (hpoint : s.point = .head) : pending s = ∅ := by
  ext d
  simp [pending, hpoint]

theorem mem_pending_expand {current : Node ℝ} (hpoint : s.point = .expand current (ofNodes es))
    {v w : ℤ × ℤ} : (v, w) ∈ pending s ↔ v = cell current ∧ ∃ n ∈ es, w = cell n.1 := by
  constructor
  · rintro ⟨_, _, hexpand, n, hn, heq⟩
    rw [hpoint] at hexpand
    obtain ⟨rfl, rfl⟩ := Point.expand.inj hexpand
    rw [nodes_ofNodes] at hn
    obtain ⟨m, hm, rfl⟩ := List.mem_map.mp hn
    obtain ⟨rfl, rfl⟩ := Prod.mk.inj heq
    exact ⟨rfl, m, hm, rfl⟩
  · rintro ⟨rfl, n, hn, rfl⟩
    refine ⟨_, _, hpoint, n.1, ?_, rfl⟩
    rw [nodes_ofNodes]
    exact List.mem_map_of_mem hn

theorem tentGScore_config (current n : Node ℝ) :
    tentGScore (config obstacleMap pose goal) current n =
      current.gScore + distance (cell current) (cell n) := by
  rw [distance_comm]
  rfl

/-! ### The steps of the search -/

theorem Informed.notMem_closed (h : Informed obstacleMap pose goal s opened closed)
    (he : e ∈ opened) (c : ℝ) : (cell e.1, c) ∉ costs closed := by
  rintro ⟨m, hm, heq⟩
  exact h.explored.disjoint m.1 (h.settled m hm) e he (Prod.mk.inj heq).1

/-- A node that was expanded is closed with its own cost. -/
theorem Informed.cost_eq {current : Node ℝ} {c : ℝ}
    (h : Informed obstacleMap pose goal s opened closed) (hcurrent : current ∈ s.expanded)
    (hc : (cell current, c) ∈ costs closed) : c = current.gScore := by
  obtain ⟨m, hm, heq⟩ := hc
  obtain ⟨hcell, rfl⟩ := Prod.mk.inj heq
  rw [List.inj_on_of_nodup_map h.explored.nodup (h.settled m hm) hcurrent hcell.symm]

/-- The first open node has the least cost plus estimate. -/
theorem Informed.least {rest : List (Node ℝ × ℝ)}
    (h : Informed obstacleMap pose goal s (e :: rest) closed) (u : ℤ × ℤ) (c : ℝ)
    (hu : (u, c) ∈ costs (e :: rest)) :
    e.1.gScore + (problem obstacleMap pose goal).estimate (cell e.1) ≤
      c + (problem obstacleMap pose goal).estimate u := by
  obtain ⟨m, hm, heq⟩ := hu
  obtain ⟨rfl, rfl⟩ := Prod.mk.inj heq
  have hle : e.2 ≤ m.2 := by
    rcases List.mem_cons.mp hm with rfl | hm
    · exact le_rfl
    · exact (List.pairwise_cons.mp h.sorted).1 m hm
  rw [h.value e (.head rest), h.value m hm] at hle
  exact hle

/-- The first open node, if it is at the goal. -/
theorem Informed.shortest {rest : List (Node ℝ × ℝ)} (hpoint : s.point = .head)
    (h : Informed obstacleMap pose goal s (e :: rest) closed)
    (hgoal : AtGoal (config obstacleMap pose goal) e.1) :
    Shortest obstacleMap pose goal (backPath e.1) := by
  have hcell : cell e.1 = (goal.x, goal.y) := Prod.ext hgoal.1 hgoal.2
  obtain ⟨hpath, hlength⟩ := (h.traced e (.head rest)).isPath
  have hfrontier := h.frontier
  rw [pending_head hpoint] at hfrontier
  rw [hcell] at hpath
  refine ⟨hpath, fun path' hpath' => ?_⟩
  rw [hlength]
  rw [← hcell] at hpath'
  exact hfrontier.le_of_reach (consistent_problem obstacleMap pose goal) h.least
    (h.notMem_closed (.head rest)) hpath'.reach


theorem informed_start (hpath : Proper goalPath) :
    ∃ opened closed, Informed obstacleMap pose goal
      (start (config obstacleMap pose goal) goalPath) opened closed := by
  refine ⟨_, _, explored_start _ hpath, List.pairwise_singleton _ _, ?_, ?_, ?_, ?_, ?_⟩
  · intro e he
    rw [List.mem_singleton.mp he, fScore]
    exact (zero_add _).symm
  · intro e he
    rw [List.mem_singleton.mp he]
    exact .pose
  · intro n hn
    cases hn
  · intro e he
    cases he
  · have hopened : costs [(newNode pose.x pose.y 0, (config obstacleMap pose goal).estDistanceG
        pose.x pose.y)] = {((problem obstacleMap pose goal).start, 0)} := by
      ext p
      simp [costs, cell, newNode, problem]
    have hclosed : costs [] = ∅ := by
      ext p
      simp [costs]
    have hpending : pending (start (config obstacleMap pose goal) goalPath) = ∅ := by
      ext d
      simp [pending, start]
    have h := BestFirst.frontier_start (problem obstacleMap pose goal)
    rwa [← hopened, ← hclosed, ← hpending] at h

theorem Informed.expand {rest : List (Node ℝ × ℝ)} {v : ℝ} (hpoint : s.point = .head)
    (h : Informed obstacleMap pose goal s (e :: rest) closed)
    (hexplored : Explored (config obstacleMap pose goal) s' rest (insertNode closed e.1 v))
    (hpoint' : s'.point = .expand e.1 (ofNodes (neighborEntries obstacleMap e.1)))
    (hexpanded : s'.expanded = e.1 :: s.expanded) :
    Informed obstacleMap pose goal s' rest (insertNode closed e.1 v) := by
  have hfrontier := h.frontier
  rw [pending_head hpoint] at hfrontier
  refine ⟨hexplored, (List.pairwise_cons.mp h.sorted).2, fun m hm => h.value m (.tail e hm),
    fun m hm => h.traced m (.tail e hm), ?_, ?_, ?_⟩
  all_goals try rw [hexpanded]
  · intro n hn
    rcases List.mem_cons.mp hn with rfl | hn
    · exact h.traced e (.head rest)
    · exact h.tracedExpanded n hn
  · intro m hm
    rcases mem_insertNode.mp hm with rfl | hm
    · exact .head _
    · exact .tail _ (h.settled m hm)
  · rw [costs_insertNode]
    refine (hfrontier.settle (consistent_problem obstacleMap pose goal) h.least
      (h.notMem_closed (.head rest)) ?_).due_congr ?_
    · rintro u c ⟨m, hm, heq⟩ hne
      obtain ⟨rfl, rfl⟩ := Prod.mk.inj heq
      rcases List.mem_cons.mp hm with rfl | hm
      · exact absurd rfl hne
      · exact ⟨m, hm, rfl⟩
    -- the steps that become due are those to the neighbours
    · rintro v w rfl hstep
      exact (mem_pending_expand hpoint').mpr
        ⟨rfl, (newNode w.1 w.2 0, 0), mem_neighborEntries_iff.mpr ⟨rfl, hstep⟩, rfl⟩

theorem Informed.done {current : Node ℝ} (hpoint : s.point = .expand current (ofNodes []))
    (h : Informed obstacleMap pose goal s opened closed)
    (hexplored : Explored (config obstacleMap pose goal) s' opened closed)
    (hexpanded : s'.expanded = s.expanded) : Informed obstacleMap pose goal s' opened closed := by
  refine ⟨hexplored, h.sorted, h.value, h.traced, ?_, ?_, ?_⟩
  · rw [hexpanded]
    exact h.tracedExpanded
  · rw [hexpanded]
    exact h.settled
  · refine h.frontier.due_congr fun v w hdue _ => ?_
    obtain ⟨-, n, hn, -⟩ := (mem_pending_expand hpoint).mp hdue
    cases hn

/-- The neighbour that `command` comes to is not due any more. -/
theorem frontier_next {current : Node ℝ} {opened' : List (Node ℝ × ℝ)}
    (hpoint : s.point = .expand current (ofNodes (n :: es)))
    (hpoint' : s'.point = .expand current (ofNodes es))
    (h : BestFirst.Frontier (problem obstacleMap pose goal) (costs opened) (costs closed)
      (pending s))
    (hkeep : ∀ u c, (u, c) ∈ costs opened → ∃ c' ≤ c, (u, c') ∈ costs opened')
    (hnext : ∀ c, (cell current, c) ∈ costs closed → (∃ c', (cell n.1, c') ∈ costs closed) ∨
      ∃ c' ≤ c + distance (cell current) (cell n.1), (cell n.1, c') ∈ costs opened') :
    BestFirst.Frontier (problem obstacleMap pose goal) (costs opened') (costs closed)
      (pending s') := by
  refine (h.relax hkeep hnext).due_congr ?_
  rintro v w ⟨hdue, hne⟩ -
  obtain ⟨rfl, m, hm, rfl⟩ := (mem_pending_expand hpoint).mp hdue
  rcases List.mem_cons.mp hm with rfl | hm
  · exact absurd rfl hne
  · exact (mem_pending_expand hpoint').mpr ⟨rfl, m, hm, rfl⟩

theorem Informed.skip {current : Node ℝ} (hpoint : s.point = .expand current (ofNodes (n :: es)))
    (h : Informed obstacleMap pose goal s opened closed)
    (hskip : (∃ m ∈ closed, nodeEqauls n.1 m.1 = true) ∨
      ∃ m ∈ opened, nodeEqauls n.1 m.1 = true ∧
        ¬ tentGScore (config obstacleMap pose goal) current n.1 < m.1.gScore)
    (hexplored : Explored (config obstacleMap pose goal) s' opened closed)
    (hpoint' : s'.point = .expand current (ofNodes es)) (hexpanded : s'.expanded = s.expanded) :
    Informed obstacleMap pose goal s' opened closed := by
  refine ⟨hexplored, h.sorted, h.value, h.traced, ?_, ?_, ?_⟩
  · rw [hexpanded]
    exact h.tracedExpanded
  · rw [hexpanded]
    exact h.settled
  · refine frontier_next hpoint hpoint' h.frontier (fun u c hu => ⟨c, le_rfl, hu⟩) fun c hc => ?_
    rcases hskip with ⟨m, hm, hsame⟩ | ⟨m, hm, hsame, hworse⟩
    · rw [nodeEqauls_iff_cell.mp hsame]
      exact .inl ⟨_, m, hm, rfl⟩
    · rw [h.cost_eq (h.explored.current hpoint).1 hc]
      rw [tentGScore_config, not_lt] at hworse
      refine .inr ⟨m.1.gScore, hworse, m, hm, ?_⟩
      rw [nodeEqauls_iff_cell.mp hsame]

theorem Informed.enter {current : Node ℝ} (hpoint : s.point = .expand current (ofNodes (n :: es)))
    (h : Informed obstacleMap pose goal s opened closed)
    (hbetter : ∀ m ∈ opened.find? (fun e => nodeEqauls n.1 e.1),
      tentGScore (config obstacleMap pose goal) current n.1 < m.1.gScore)
    (hexplored : Explored (config obstacleMap pose goal) s'
      (openWith (config obstacleMap pose goal) opened current n.1) closed)
    (hpoint' : s'.point = .expand current (ofNodes es)) (hexpanded : s'.expanded = s.expanded) :
    Informed obstacleMap pose goal s'
      (openWith (config obstacleMap pose goal) opened current n.1) closed := by
  obtain ⟨hcurrent, hentry⟩ := h.explored.current hpoint
  obtain ⟨-, hstep⟩ := mem_neighborEntries_iff.mp hentry
  have hsub := List.eraseP_sublist (l := opened) (p := fun e => nodeEqauls e.1 n.1)
  refine ⟨hexplored, sorted_insertNode (n := (entered _ current n.1, 0)) (h.sorted.sublist hsub),
    ?_, ?_, ?_, ?_, ?_⟩
  · intro m hm
    rcases mem_insertNode.mp hm with rfl | hm
    · rfl
    · exact h.value m (hsub.subset hm)
  · intro m hm
    rcases mem_insertNode.mp hm with rfl | hm
    · rw [entered, tentGScore_config]
      exact .step (h.tracedExpanded current hcurrent) hstep
    · exact h.traced m (hsub.subset hm)
  · rw [hexpanded]
    exact h.tracedExpanded
  · rw [hexpanded]
    exact h.settled
  · refine frontier_next hpoint hpoint' h.frontier ?_ fun c hc => .inr ?_
    all_goals rw [openWith, costs_insertNode]
    · intro u c hu
      by_cases hcell : u = cell n.1
      · obtain ⟨m, hm, heq⟩ := hu
        obtain ⟨rfl, rfl⟩ := Prod.mk.inj heq
        have hlt := hbetter m (h.explored.distinct.find?_eq hm hcell.symm)
        exact ⟨_, hlt.le, .inl (Prod.ext hcell rfl)⟩
      · exact ⟨c, le_rfl, .inr (mem_costs_eraseP hu hcell)⟩
    · rw [h.cost_eq hcurrent hc, ← tentGScore_config]
      exact ⟨_, le_rfl, .inl rfl⟩

/-! ### Runs -/

/-- Where a run of `command` is. -/
def Searched (obstacleMap : ℤ → ℤ → Bool) (pose goal : PointI) (s : Search ℝ) : Prop :=
  match s.point with
  | .head | .expand _ _ =>
    ∃ opened closed, Informed obstacleMap pose goal s opened closed
  | .solved => Shortest obstacleMap pose goal ((nodes s.goalPath).map cell)
  | _ => True

theorem Searched.step (h : Searched obstacleMap pose goal s)
    (hs : s' ∈ step (config obstacleMap pose goal) s ()) :
    Searched obstacleMap pose goal s' := by
  have hinformed : ∃ opened closed, Informed obstacleMap pose goal s opened closed := by
    cases hpoint : s.point with
    | head | expand => simpa only [Searched, hpoint] using h
    | solved | failed | crashed => simp [AStar.step, hpoint] at hs
  obtain ⟨opened, closed, h⟩ := hinformed
  have hneighbors : ∀ current ns, s.point = .expand current ns → ∃ es, ns = ofNodes es :=
    fun current ns hpoint => (h.explored.neighbors current ns hpoint).2.imp fun _ hes => hes.1
  cases step_cases h.explored.holds hneighbors hs with
  | failed _ _ _ hpoint' => simp only [Searched, hpoint']
  | solved e rest hpoint hopened hgoal _ hpath hpoint' =>
    simp only [Searched, hpoint', hpath]
    subst hopened
    have hshortest := h.shortest hpoint hgoal
    have hcells := map_cell_nodes_extractPath e.1 newList
    rw [hcells]
    exact (List.append_nil (backPath e.1)).symm ▸ hshortest
  | expand e rest hpoint hopened _ hholds hpoint' hexpanded =>
    subst hopened
    have hexplored := explored_of_holds h.explored hs (by simp [hpoint']) hholds
    simp only [Searched, hpoint']
    exact ⟨_, _, h.expand hpoint hexplored hpoint' hexpanded⟩
  | done current hpoint hholds hpoint' hexpanded =>
    have hexplored := explored_of_holds h.explored hs (by simp [hpoint']) hholds
    simp only [Searched, hpoint']
    exact ⟨_, _, h.done hpoint hexplored hexpanded⟩
  | skip current n es hpoint hskip hholds hpoint' hexpanded =>
    have hexplored := explored_of_holds h.explored hs (by simp [hpoint']) hholds
    simp only [Searched, hpoint']
    exact ⟨_, _, h.skip hpoint hskip hexplored hpoint' hexpanded⟩
  | enter current n es hpoint _ hbetter _ hholds hpoint' hexpanded =>
    have hexplored := explored_of_holds h.explored hs (by simp [hpoint']) hholds
    simp only [Searched, hpoint']
    exact ⟨_, _, h.enter hpoint hbetter hexplored hpoint' hexpanded⟩
  | crashed _ _ _ _ _ _ _ _ _ hs' => simp only [Searched, hs']

/-- **The path of `command`.** When a call reaches its solution branch, `goal_path` is a path of
permitted steps from the pose to the goal, and no such path is shorter. -/
theorem goalPath_shortest (obstacleMap : ℤ → ℤ → Bool) (pose goal : PointI)
    (hpath : GoalPath goalPath)
    (ht : Reaches (step (config obstacleMap pose goal)) (fun _ _ => True)
      (start (config obstacleMap pose goal) goalPath) t) (hsolved : t.point = .solved) :
    IsPath obstacleMap (pose.x, pose.y) (goal.x, goal.y) ((nodes t.goalPath).map cell) ∧
      ∀ path, IsPath obstacleMap (pose.x, pose.y) (goal.x, goal.y) path →
        pathLength ((nodes t.goalPath).map cell) ≤ pathLength path := by
  have hsearched : Searched obstacleMap pose goal t := by
    refine ht.invariant ?_ fun s _ s' hs _ hs' => hs.step hs'
    exact informed_start hpath.proper
  simp only [Searched, hsolved] at hsearched
  exact hsearched

/-- A map with two free cells. -/
def corridorMap (x y : ℤ) : Bool := ¬ (y = 10 ∧ (x = 10 ∨ x = 11))

/-- A call that reaches its solution branch. -/
theorem corridor_solved : ∃ t, Reaches (step (config corridorMap ⟨10, 10⟩ ⟨11, 10⟩))
    (fun _ _ => True) (start (config corridorMap ⟨10, 10⟩ ⟨11, 10⟩) newList) t ∧
      t.point = .solved := by
  have h := (visits_start (config corridorMap ⟨10, 10⟩ ⟨11, 10⟩)).expand
    (by simp [AtGoal, config, newNode])
  have hlist : neighborEntries corridorMap (newNode 10 10 (0 : ℝ)) = [(newNode 11 10 0, 0)] := by
    have hfilter : offsets.filter (fun o => (visit corridorMap 10 10 o.1 o.2).1) = [(1, 0)] := by
      decide
    rw [neighborEntries_eq, newNode, hfilter]
    rfl
  simp only [config, hlist] at h
  have h := (h.enter (by simp [insertNode, nodeEqauls, newNode]) (by simp)).head
  obtain ⟨s, hreach, hholds, hpoint, -⟩ := h
  have hgoal : AtGoal (config corridorMap ⟨10, 10⟩ ⟨11, 10⟩)
      (entered (config corridorMap ⟨10, 10⟩ ⟨11, 10⟩) (newNode 10 10 0) (newNode 11 10 0)) :=
    ⟨rfl, rfl⟩
  exact ⟨_, hreach.tail trivial (step_head_goal hholds hpoint hgoal), rfl⟩

/-- The path that the call leaves. -/
theorem goalPath_shortest_corridor : ∃ t : Search ℝ, t.point = .solved ∧
    IsPath corridorMap (10, 10) (11, 10) ((nodes t.goalPath).map cell) ∧
      ∀ path, IsPath corridorMap (10, 10) (11, 10) path →
        pathLength ((nodes t.goalPath).map cell) ≤ pathLength path := by
  obtain ⟨t, ht, hsolved⟩ := corridor_solved
  exact ⟨t, hsolved, goalPath_shortest corridorMap ⟨10, 10⟩ ⟨11, 10⟩ .newList ht hsolved⟩

end S3RES.AStar
