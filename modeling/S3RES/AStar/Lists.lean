import S3RES.AStar.Steps

/-!
# The lists of the search along its runs

A step crashes exactly if `open_set` holds only the cell of the next neighbour, which is reached
on a shorter way (`Stranded`): `removeNode` leaves `NULL` there, and `addNode` follows it.
`lists_nonNull` is that for whole runs, and `not_lists_nonNull` a search that is stranded.
-/

namespace S3RES.AStar

open Mapping StepSystem

variable {R : Type*} [Zero R] [LT R] [DecidableLT R] [Add R] {c : Config R} {s s' : Search R}
  {e n : Node R × R} {opened closed : List (Node R × R)}

/-! ### Runs -/

/-- The lists are lists of nodes. -/
structure Sound (s : Search R) : Prop where
  lists : ∃ opened closed, Holds s opened closed
  neighbors : ∀ current ns, s.point = .expand current ns → ∃ es, ns = ofNodes es

omit [Add R] in
theorem openSet_start (c : Config R) (goalPath : NodeList R) : (start c goalPath).openSet =
    ofNodes [(newNode c.pose.x c.pose.y 0, c.estDistanceG c.pose.x c.pose.y)] := rfl

omit [Add R] in
theorem sound_start {goalPath : NodeList R} (hpath : Proper goalPath) :
    Sound (start c goalPath) := by
  refine ⟨⟨_, [], openSet_start c goalPath, rfl, hpath⟩, fun current ns hpoint => ?_⟩
  cases hpoint

theorem Sound.step (h : Sound s) (hs : s' ∈ step c s ()) : s'.point = .crashed ∨ Sound s' := by
  obtain ⟨opened, closed, hholds⟩ := h.lists
  have hat : ∀ {point opened' closed'}, Holds s' opened' closed' → s'.point = point →
      (∀ current ns, point = .expand current ns → ∃ es, ns = ofNodes es) → Sound s' := by
    rintro point opened' closed' hholds' rfl hneighbors
    exact ⟨⟨_, _, hholds'⟩, hneighbors⟩
  cases step_cases hholds h.neighbors hs with
  | failed _ _ hholds' hpoint' => exact .inr (hat hholds' hpoint' (by simp))
  | solved _ _ _ _ _ hholds' _ hpoint' => exact .inr (hat hholds' hpoint' (by simp))
  | expand e _ _ _ _ hholds' hpoint' =>
    refine .inr (hat hholds' hpoint' ?_)
    rintro _ _ ⟨⟩
    exact ⟨_, rfl⟩
  | done _ _ hholds' hpoint' => exact .inr (hat hholds' hpoint' (by simp))
  | skip _ _ es _ _ hholds' hpoint' | enter _ _ es _ _ _ _ hholds' hpoint' =>
    refine .inr (hat hholds' hpoint' ?_)
    rintro _ _ ⟨⟩
    exact ⟨es, rfl⟩
  | crashed _ _ _ _ _ _ _ _ _ hs' => exact .inl (congrArg Search.point hs')

/-- Along a run the lists are lists of nodes, until the search crashes. -/
theorem sound_of_reaches {ok : Search R → Unit → Prop} {goalPath : NodeList R}
    (hpath : Proper goalPath) (h : Reaches (step c) ok (start c goalPath) s) :
    s.point = .crashed ∨ Sound s := by
  refine h.invariant (I := fun s => s.point = .crashed ∨ Sound s) (.inr (sound_start hpath)) ?_
  rintro t ⟨⟩ u (hcrashed | hsound) - hu
  · simp [step, hcrashed] at hu
  · exact hsound.step hu

theorem GoalPath.proper {list : NodeList R} (h : GoalPath list) : Proper list := by
  induction h with
  | newList => exact proper_newList
  | pop _ hpop ih => exact ih.pop hpop
  | command c _ ht hend ih =>
    rcases sound_of_reaches ih ht with hcrashed | hsound
    · simp [hcrashed] at hend
    · obtain ⟨_, _, hholds⟩ := hsound.lists
      exact hholds.goalPath

/-- No list of the search is `NULL`, and none was where a list operation was given it. -/
structure NonNull (s : Search R) : Prop where
  point : s.point ≠ .crashed
  openSet : s.openSet ≠ []
  closedSet : s.closedSet ≠ []
  goalPath : s.goalPath ≠ []
  neighbors : ∀ current ns, s.point = .expand current ns → ns ≠ []

omit [LT R] [DecidableLT R] [Add R] in
theorem Sound.nonNull (h : Sound s) (hpoint : s.point ≠ .crashed) : NonNull s := by
  obtain ⟨opened, closed, hholds⟩ := h.lists
  refine ⟨hpoint, ?_, ?_, hholds.goalPath.1, fun current ns hexpand => ?_⟩
  · rw [hholds.openSet]
    exact ofNodes_ne_nil opened
  · rw [hholds.closedSet]
    exact ofNodes_ne_nil closed
  · obtain ⟨es, rfl⟩ := h.neighbors current ns hexpand
    exact ofNodes_ne_nil es

/-- The next neighbour is not closed, its cell is the only one in `open_set`, and the way to it
is shorter. -/
def Stranded (c : Config R) (s : Search R) : Prop :=
  ∃ current n m v v' ns, s.point = .expand current (⟨some n, v⟩ :: ns) ∧
    findNode s.closedSet n = none ∧ s.openSet = [⟨some m, v'⟩] ∧ nodeEqauls n m = true ∧
    tentGScore c current n < m.gScore

omit [LT R] [DecidableLT R] [Add R] in
theorem ofNodes_eq_singleton {m : Node R} {v : R} (h : ofNodes opened = [⟨some m, v⟩]) :
    opened = [(m, v)] := by
  match opened, h with
  | [(m', v')], h =>
    obtain ⟨⟨rfl⟩, rfl⟩ := Cell.mk.inj (List.cons.inj h).1
    rfl

omit [DecidableLT R] in
theorem stranded_iff {current : Node R} {n : Node R × R} {es : List (Node R × R)}
    (h : Holds s opened closed) (hpoint : s.point = .expand current (ofNodes (n :: es))) :
    Stranded c s ↔ (∀ m ∈ closed, nodeEqauls n.1 m.1 = false) ∧
      ∃ m, opened = [m] ∧ nodeEqauls n.1 m.1 = true ∧
        tentGScore c current n.1 < m.1.gScore := by
  have hclosed : findNode s.closedSet n.1 = none ↔ ∀ m ∈ closed, nodeEqauls n.1 m.1 = false := by
    rw [h.closedSet, findNode_ofNodes, Option.map_eq_none_iff, List.find?_eq_none]
    simp only [Bool.not_eq_true]
  constructor
  · rintro ⟨_, _, m, _, v, _, hexpand, hfind, hopen, hsame, hbetter⟩
    rw [hpoint] at hexpand
    obtain ⟨rfl, hlist⟩ := Point.expand.inj hexpand
    obtain ⟨⟨rfl⟩, -⟩ := Cell.mk.inj (List.cons.inj hlist).1
    rw [h.openSet] at hopen
    exact ⟨hclosed.mp hfind, _, ofNodes_eq_singleton hopen, hsame, hbetter⟩
  · rintro ⟨hnot, m, rfl, hsame, hbetter⟩
    exact ⟨current, n.1, m.1, n.2, m.2, _, hpoint, hclosed.mpr hnot, h.openSet, hsame, hbetter⟩

/-- A step crashes exactly if the search is stranded. -/
theorem step_crashed_iff (h : Sound s) (hs : s' ∈ step c s ()) :
    s'.point = .crashed ↔ Stranded c s := by
  obtain ⟨opened, closed, hholds⟩ := h.lists
  cases step_cases hholds h.neighbors hs with
  | failed hpoint _ _ hpoint' | solved _ _ hpoint _ _ _ _ hpoint'
  | expand _ _ hpoint _ _ _ hpoint' | done _ hpoint _ hpoint' =>
    refine iff_of_false (by simp [hpoint']) ?_
    rintro ⟨_, _, _, _, _, _, hexpand, -⟩
    simp [hpoint, ofNodes, newList] at hexpand
  | skip current n es hpoint hskip _ hpoint' =>
    refine iff_of_false (by simp [hpoint']) ?_
    rw [stranded_iff hholds hpoint]
    rintro ⟨hclosed, m, rfl, -, hbetter⟩
    rcases hskip with ⟨m', hm', hsame⟩ | ⟨m', hm', -, hworse⟩
    · simp [hclosed m' hm'] at hsame
    · obtain rfl := List.mem_singleton.mp hm'
      exact hworse hbetter
  | enter current n es hpoint hclosed hbetter hleft hholds' hpoint' =>
    refine iff_of_false (by simp [hpoint']) ?_
    rw [stranded_iff hholds hpoint]
    rintro ⟨-, m, rfl, hsame, -⟩
    rw [nodeEqauls_comm] at hsame
    exact hleft (List.cons_ne_nil _ _) (List.eraseP_cons_of_pos hsame)
  | crashed current n es hpoint hclosed m hopened hsame hbetter hs' =>
    exact iff_of_true (congrArg Search.point hs') ((stranded_iff hholds hpoint).mpr
      ⟨hclosed, m, hopened, hsame, hbetter⟩)

theorem exists_crashed (h : Sound s) (hstranded : Stranded c s) :
    ∃ s' ∈ step c s (), s'.point = .crashed := by
  obtain ⟨current, n, _, _, _, ns, hpoint, -⟩ := id hstranded
  have hstep : ∃ s', s' ∈ step c s () := by simp [step, hpoint]
  obtain ⟨s', hs'⟩ := hstep
  exact ⟨s', hs', (step_crashed_iff h hs').mpr hstranded⟩

/-- A run leads to a stranded search before it crashes. -/
theorem sound_of_stranded {ok : Search R → Unit → Prop} {goalPath : NodeList R}
    (hpath : Proper goalPath) (h : Reaches (step c) ok (start c goalPath) s)
    (hstranded : Stranded c s) : Sound s := by
  obtain ⟨current, n, _, _, _, ns, hpoint, -⟩ := hstranded
  refine (sound_of_reaches hpath h).resolve_left fun hcrashed => ?_
  rw [hcrashed] at hpoint
  cases hpoint

/-- **The lists of `command`.** In a run of a call whose steps are not stranded no list operation
is given `NULL`, and the step of a stranded search gives `NULL` to `addNode`. -/
theorem lists_nonNull (c : Config R) {goalPath : NodeList R} (hpath : GoalPath goalPath) :
    (∀ t, Reaches (step c) (fun s _ => ¬ Stranded c s) (start c goalPath) t → NonNull t) ∧
      ∀ s, Reaches (step c) (fun _ _ => True) (start c goalPath) s → Stranded c s →
        ∃ s' ∈ step c s (), ¬ NonNull s' := by
  constructor
  · intro t ht
    have hsound : Sound t ∧ t.point ≠ .crashed := by
      refine ht.invariant (I := fun s => Sound s ∧ s.point ≠ .crashed)
        ⟨sound_start hpath.proper, ?_⟩ ?_
      · simp [start]
      · rintro s ⟨⟩ s' ⟨hsound, -⟩ hnot hs'
        have hpoint : s'.point ≠ .crashed := fun hcrashed =>
          hnot ((step_crashed_iff hsound hs').mp hcrashed)
        exact ⟨(hsound.step hs').resolve_left hpoint, hpoint⟩
    exact hsound.1.nonNull hsound.2
  · intro s hs hstranded
    obtain ⟨s', hs', hcrashed⟩ :=
      exists_crashed (sound_of_stranded hpath.proper hs hstranded) hstranded
    exact ⟨s', hs', fun hnonNull => hnonNull.point hcrashed⟩

/-! ### A search that is stranded -/

/-- A run of a call leads to these lists. -/
def Visits (c : Config R) (opened closed : List (Node R × R)) (point : Point R)
    (expanded : List (Node R)) : Prop :=
  ∃ s, Reaches (step c) (fun _ _ => True) (start c newList) s ∧ Holds s opened closed ∧
    s.point = point ∧ s.expanded = expanded

variable {opened' es : List (Node R × R)} {current : Node R} {expanded : List (Node R)}

theorem visits_start (c : Config R) : Visits c
    [(newNode c.pose.x c.pose.y 0, c.estDistanceG c.pose.x c.pose.y)] [] .head [] :=
  ⟨_, .refl, ⟨openSet_start c newList, rfl, proper_newList⟩, rfl, rfl⟩

theorem Visits.expand (h : Visits c (e :: opened) closed .head expanded) (hgoal : ¬ AtGoal c e.1) :
    Visits c opened (insertNode closed e.1 (c.estDistanceG e.1.x e.1.y))
      (.expand e.1 (ofNodes (neighborEntries c.obstacleMap e.1))) (e.1 :: expanded) := by
  obtain ⟨s, hreach, hholds, hpoint, rfl⟩ := h
  exact ⟨_, hreach.tail trivial (step_head_cons hholds hpoint hgoal), ⟨rfl, rfl, hholds.goalPath⟩,
    rfl, rfl⟩

theorem relax_of_notMem (hclosed : ∀ m ∈ closed, nodeEqauls n.1 m.1 = false)
    (hopened : ∀ m ∈ opened, nodeEqauls n.1 m.1 = false) :
    relax c (ofNodes closed) (ofNodes opened) current n.1 = some (ofNodes (insertNode opened
      (entered c current n.1) (tentGScore c current n.1 + c.estDistanceG n.1.x n.1.y))) := by
  have hfind : opened.find? (fun e => nodeEqauls n.1 e.1) = none :=
    List.find?_eq_none.mpr fun m hm => by simp [hopened m hm]
  have herase : opened.eraseP (fun e => nodeEqauls e.1 n.1) = opened :=
    List.eraseP_of_forall_not fun m hm => by simp [nodeEqauls_comm m.1, hopened m hm]
  have hnot : ¬ ∃ m ∈ closed, nodeEqauls n.1 m.1 = true := by
    rintro ⟨m, hm, hsame⟩
    simp [hclosed m hm] at hsame
  rw [relax_eq, hfind, openWith, herase, if_neg (by simpa using hnot), if_neg fun h => h.1 h.2]

theorem Visits.skip (h : Visits c opened closed (.expand current (ofNodes (n :: es))) expanded)
    (hskip : (∃ m ∈ closed, nodeEqauls n.1 m.1 = true) ∨
      ∃ m ∈ opened.find? (fun e => nodeEqauls n.1 e.1), ¬ tentGScore c current n.1 < m.1.gScore) :
    Visits c opened closed (.expand current (ofNodes es)) expanded := by
  obtain ⟨s, hreach, hholds, hpoint, rfl⟩ := h
  have hstep := step_expand_cons (c := c) hholds hpoint
  rw [relax_eq, if_pos hskip] at hstep
  exact ⟨_, hreach.tail trivial hstep, ⟨rfl, hholds.closedSet, hholds.goalPath⟩, rfl, rfl⟩

theorem Visits.enter (h : Visits c opened closed (.expand current (ofNodes (n :: es))) expanded)
    (hclosed : ∀ m ∈ closed, nodeEqauls n.1 m.1 = false)
    (hopened : ∀ m ∈ opened, nodeEqauls n.1 m.1 = false) :
    Visits c (insertNode opened (entered c current n.1)
      (tentGScore c current n.1 + c.estDistanceG n.1.x n.1.y)) closed
      (.expand current (ofNodes es)) expanded := by
  obtain ⟨s, hreach, hholds, hpoint, rfl⟩ := h
  have hstep := step_expand_cons (c := c) hholds hpoint
  rw [relax_of_notMem hclosed hopened] at hstep
  exact ⟨_, hreach.tail trivial hstep, ⟨rfl, hholds.closedSet, hholds.goalPath⟩, rfl, rfl⟩

theorem Visits.head (h : Visits c opened closed (.expand current (ofNodes [])) expanded) :
    Visits c opened closed .head expanded := by
  obtain ⟨s, hreach, hholds, hpoint, rfl⟩ := h
  exact ⟨_, hreach.tail trivial (step_expand_nil hpoint),
    ⟨hholds.openSet, hholds.closedSet, hholds.goalPath⟩, rfl, rfl⟩

/-- A map with four free cells. -/
def cornerMap (x y : ℤ) : Bool := (x, y) ∉ [(10, 10), (10, 11), (10, 12), (11, 11)]

/-- A search on which `(10, 10)` is the only open cell when a shorter way to it is found. -/
noncomputable def cornerConfig : Config ℝ := config cornerMap ⟨10, 12⟩ ⟨13, 7⟩

/-- The search is stranded at its third node. -/
theorem corner_stranded : ∃ s, Reaches (step cornerConfig) (fun _ _ => True)
    (start cornerConfig newList) s ∧ (∀ n ∈ s.expanded, Inner n.x n.y) ∧
      Stranded cornerConfig s := by
  have hlist : ∀ (node : Node ℝ) l,
      offsets.filter (fun o => (visit cornerMap node.x node.y o.1 o.2).1) = l →
      neighborEntries cornerMap node =
        l.map fun o => (newNode (node.x + o.1) (node.y + o.2) 0, 0) := by
    rintro node l rfl
    exact neighborEntries_eq cornerMap node
  have hmap : cornerConfig.obstacleMap = cornerMap := rfl
  have hlt : √2 + √20 < (6 : ℝ) := by
    have h2 : √2 < (3 / 2 : ℝ) := (Real.sqrt_lt' (by norm_num)).mpr (by norm_num)
    have h20 : √20 < (9 / 2 : ℝ) := (Real.sqrt_lt' (by norm_num)).mpr (by norm_num)
    linarith
  have h2 : (1 : ℝ) < √2 := (Real.lt_sqrt (by norm_num)).mpr (by norm_num)
  have hle : 6 ≤ √2 + √2 + √18 := by
    have h18 : (4 : ℝ) < √18 := (Real.lt_sqrt (by norm_num)).mpr (by norm_num)
    linarith
  let p : Node ℝ := ⟨10, 12, 0, none⟩
  let q : Node ℝ := ⟨10, 11, 1, some p⟩
  let r : Node ℝ := ⟨11, 11, √2, some p⟩
  let u : Node ℝ := ⟨10, 10, √2 + √2, some r⟩
  have h₀ : Visits cornerConfig [(p, √34)] [] .head [] := by
    have h := visits_start cornerConfig
    norm_num [cornerConfig, config, newNode, Config.estDistanceG, estDistance] at h
    exact h
  have h₁ : Visits cornerConfig [] [(p, √34)]
      (.expand p (ofNodes [(newNode 10 11 0, 0), (newNode 11 11 0, 0)])) [p] := by
    have h := h₀.expand (by simp [AtGoal, cornerConfig, config, p])
    rw [hmap, hlist p [(0, -1), (1, -1)] (by decide)] at h
    norm_num [insertNode, cornerConfig, config, p, Config.estDistanceG, estDistance] at h
    exact h
  have h₂ : Visits cornerConfig [(q, 6)] [(p, √34)]
      (.expand p (ofNodes [(newNode 11 11 0, 0)])) [p] := by
    have h := h₁.enter (by simp [nodeEqauls, newNode, p]) (by simp)
    norm_num [insertNode, newNode, entered, tentGScore, cornerConfig, config, p,
      Config.estDistanceG, estDistance] at h
    exact h
  have h₃ : Visits cornerConfig [(r, √2 + √20), (q, 6)] [(p, √34)]
      (.expand p (ofNodes [])) [p] := by
    have h := h₂.enter (by simp [nodeEqauls, newNode, p]) (by simp [nodeEqauls, newNode, q])
    norm_num [insertNode, Before, newNode, entered, tentGScore, cornerConfig, config, p,
      Config.estDistanceG, estDistance, hlt] at h
    exact h
  have h₄ : Visits cornerConfig [(q, 6)] [(r, √20), (p, √34)]
      (.expand r (ofNodes [(newNode 10 10 0, 0), (newNode 10 11 0, 0), (newNode 10 12 0, 0)]))
      [r, p] := by
    have h := h₃.head.expand (by simp [AtGoal, cornerConfig, config, r])
    rw [hmap, hlist r [(-1, -1), (-1, 0), (-1, 1)] (by decide)] at h
    norm_num [insertNode, Before, cornerConfig, config, r, Config.estDistanceG, estDistance] at h
    exact h
  have h₅ : Visits cornerConfig [(q, 6), (u, √2 + √2 + √18)] [(r, √20), (p, √34)]
      (.expand r (ofNodes [(newNode 10 11 0, 0), (newNode 10 12 0, 0)]))
      [r, p] := by
    have h := h₄.enter (by simp [nodeEqauls, newNode, p, r]) (by simp [nodeEqauls, newNode, q])
    norm_num [insertNode, Before, newNode, entered, tentGScore, cornerConfig, config, r,
      Config.estDistanceG, estDistance, not_lt.mpr hle] at h
    exact h
  have h₆ : Visits cornerConfig [(q, 6), (u, √2 + √2 + √18)] [(r, √20), (p, √34)]
      (.expand r (ofNodes [])) [r, p] := by
    refine (h₅.skip (.inr ?_)).skip (.inl ?_)
    · norm_num [nodeEqauls, newNode, tentGScore, cornerConfig, config, q, r, estDistance]
    · simp [nodeEqauls, newNode, p]
  have h₇ : Visits cornerConfig [(u, √2 + √2 + √18)]
      (insertNode [(r, √20), (p, √34)] q 5)
      (.expand q (ofNodes [(newNode 10 10 0, 0), (newNode 10 12 0, 0), (newNode 11 11 0, 0)]))
      [q, r, p] := by
    have h := h₆.head.expand (by simp [AtGoal, cornerConfig, config, q])
    rw [hmap, hlist q [(0, -1), (0, 1), (1, 0)] (by decide)] at h
    norm_num [cornerConfig, config, q, Config.estDistanceG, estDistance] at h
    exact h
  obtain ⟨s, hreach, hholds, hpoint, hexpanded⟩ := h₇
  refine ⟨s, hreach, ?_, ?_⟩
  · simp only [hexpanded, List.forall_mem_cons, p, q, r]
    decide
  · have hlt' : (2 : ℝ) < √2 + √2 := by linarith
    refine (stranded_iff hholds hpoint).mpr ⟨?_, _, rfl, ?_, ?_⟩
    · simp [mem_insertNode, nodeEqauls, newNode, p, q, r]
    · simp [nodeEqauls, newNode, u]
    · norm_num [tentGScore, newNode, cornerConfig, config, q, u, estDistance, hlt']

/-- A search inside the map in which `addNode` is given `NULL`. -/
theorem not_lists_nonNull : ∃ s, Reaches (step cornerConfig) (fun _ _ => True)
    (start cornerConfig newList) s ∧ (∀ n ∈ s.expanded, Inner n.x n.y) ∧
      ∃ s' ∈ step cornerConfig s (), ¬ NonNull s' := by
  obtain ⟨s, hreach, hinner, hstranded⟩ := corner_stranded
  obtain ⟨s', hs', hcrashed⟩ :=
    exists_crashed (sound_of_stranded proper_newList hreach hstranded) hstranded
  exact ⟨s, hreach, hinner, s', hs', fun hnonNull => hnonNull.point hcrashed⟩

/-- The start of the search, and the step on which it is stranded. -/
theorem lists_nonNull_corner : NonNull (start cornerConfig newList) ∧
    ∃ s, Stranded cornerConfig s ∧ ∃ s' ∈ step cornerConfig s (), ¬ NonNull s' := by
  obtain ⟨hrun, hcrash⟩ := lists_nonNull cornerConfig .newList
  obtain ⟨s, hreach, -, hstranded⟩ := corner_stranded
  exact ⟨hrun _ .refl, s, hstranded, hcrash s hreach hstranded⟩

end S3RES.AStar
