import S3RES.AStar.Shortest

/-!
# The path that `command` leaves behind

`command` gives up the old `goal_path` in its solution branch only. A search that comes to an end
otherwise has closed everything that permitted steps lead to (`Covered`), so there is no path to
the goal, and `goal_path` is what it was on an earlier map. `safe_iff`: the path that is left is
safe if and only if there is a path to the goal, or the old one happens to be safe.

Nothing here depends on the distances, which may be any.
-/

namespace S3RES.AStar

open Mapping StepSystem

variable {R : Type*} [Zero R] [Add R] [LT R] [DecidableLT R] {c : Config R} {s s' t : Search R}
  {opened closed : List (Node R × R)} {goalPath : NodeList R}

/-- The cell `command` starts from. -/
def Config.poseCell (c : Config R) : ℤ × ℤ := (c.pose.x, c.pose.y)

/-- The cell it is to find. -/
def Config.goalCell (c : Config R) : ℤ × ℤ := (c.goal.x, c.goal.y)

/-- A path that may be driven: none, or from the pose to the goal, with free cells behind the
first. -/
def Safe (c : Config R) (path : List (ℤ × ℤ)) : Prop :=
  path = [] ∨ path.head? = some c.poseCell ∧ path.getLast? = some c.goalCell ∧
    ∀ a ∈ path.tail, c.obstacleMap a.1 a.2 = false

instance (c : Config R) (path : List (ℤ × ℤ)) : Decidable (Safe c path) :=
  inferInstanceAs (Decidable (_ ∨ _))

/-- There is a path of permitted steps from the pose to the goal. -/
def Reachable (c : Config R) : Prop := ∃ path, IsPath c.obstacleMap c.poseCell c.goalCell path

/-- Permitted steps lead to free cells. -/
theorem IsPath.free {obstacleMap : ℤ → ℤ → Bool} {a b : ℤ × ℤ} {path : List (ℤ × ℤ)}
    (h : IsPath obstacleMap a b path) : ∀ d ∈ path.tail, obstacleMap d.1 d.2 = false := by
  obtain ⟨path, rfl⟩ := List.head?_eq_some_iff.mp h.head
  have hfree : ∀ (v : ℤ × ℤ) (path : List (ℤ × ℤ)),
      (v :: path).IsChain (Permitted obstacleMap) → ∀ d ∈ path, obstacleMap d.1 d.2 = false := by
    intro v path
    induction path generalizing v with
    | nil => simp
    | cons w path ih =>
      intro hchain
      obtain ⟨hstep, hrest⟩ := List.isChain_cons_cons.mp hchain
      exact List.forall_mem_cons.mpr ⟨hstep.2.2.1, ih w hrest⟩
  exact hfree a path h.steps

omit [Zero R] [Add R] [LT R] [DecidableLT R] in
theorem IsPath.safe {path : List (ℤ × ℤ)} (h : IsPath c.obstacleMap c.poseCell c.goalCell path) :
    Safe c path := .inr ⟨h.head, h.last, h.free⟩

/-! ### Back links -/

/-- The back links of the node lead to the cell by permitted steps. -/
inductive Linked (obstacleMap : ℤ → ℤ → Bool) (a : ℤ × ℤ) : Node R → Prop
  | pose (gScore : R) : Linked obstacleMap a ⟨a.1, a.2, gScore, none⟩
  | step {current : Node R} {x y : ℤ} (gScore : R) (h : Linked obstacleMap a current)
      (hstep : Permitted obstacleMap (cell current) (x, y)) :
      Linked obstacleMap a ⟨x, y, gScore, some current⟩

omit [Add R] [LT R] [DecidableLT R] in
/-- The cells that `extractPath` puts in front of a list. -/
theorem Linked.isPath {obstacleMap : ℤ → ℤ → Bool} {a : ℤ × ℤ} {n : Node R}
    (h : Linked obstacleMap a n) : ∃ path, IsPath obstacleMap a (cell n) path ∧
      ∀ list, (nodes (extractPath list n)).map cell = path ++ (nodes list).map cell := by
  induction h with
  | pose gScore => exact ⟨[a], ⟨rfl, rfl, .singleton _⟩, fun _ => rfl⟩
  | @step current x y gScore _ hstep ih =>
    obtain ⟨path, hpath, hextract⟩ := ih
    refine ⟨path ++ [(x, y)], hpath.concat hstep, fun list => ?_⟩
    rw [extractPath, hextract, List.append_assoc]
    rfl

/-! ### What the search has covered -/

/-- The search has the cell: it has expanded it, or it is open. -/
def Known (s : Search R) (opened : List (Node R × R)) (w : ℤ × ℤ) : Prop :=
  (∃ n ∈ s.expanded, cell n = w) ∨ ∃ e ∈ opened, cell e.1 = w

/-- It is a neighbour that is still to be looked at. -/
def Due (s : Search R) (v w : ℤ × ℤ) : Prop :=
  ∃ current es, s.point = .expand current (ofNodes es) ∧ cell current = v ∧
    ∃ e ∈ es, cell e.1 = w

/-- What the search has covered: the pose, and all that permitted steps lead to from the cells it
has expanded, of which none is the goal. -/
structure Covered (c : Config R) (s : Search R) (opened closed : List (Node R × R)) : Prop where
  explored : Explored c s opened closed
  linked : ∀ e ∈ opened, Linked c.obstacleMap c.poseCell e.1
  linkedExpanded : ∀ n ∈ s.expanded, Linked c.obstacleMap c.poseCell n
  settled : ∀ e ∈ closed, e.1 ∈ s.expanded
  pose : Known s opened c.poseCell
  next : ∀ n ∈ s.expanded, ∀ w, Permitted c.obstacleMap (cell n) w →
    Due s (cell n) w ∨ Known s opened w
  notGoal : ∀ n ∈ s.expanded, ¬ AtGoal c n

omit [Add R] in
theorem covered_start (c : Config R) (hpath : Proper goalPath) :
    Covered c (start c goalPath)
      [(newNode c.pose.x c.pose.y 0, c.estDistanceG c.pose.x c.pose.y)] [] where
  explored := explored_start c hpath
  linked := by
    intro e he
    rw [List.mem_singleton.mp he]
    exact .pose 0
  linkedExpanded := by
    intro n hn
    cases hn
  settled := by
    intro e he
    cases he
  pose := .inr ⟨_, .head [], rfl⟩
  next := by
    intro n hn
    cases hn
  notGoal := by
    intro n hn
    cases hn

omit [Add R] in
/-- When nothing is open and nothing is due, all that permitted steps lead to has been
expanded. -/
theorem Covered.not_reachable (h : Covered c s [] closed) (hpoint : s.point = .head) :
    ¬ Reachable c := by
  have hknown : ∀ w, Known s [] w → ∃ n ∈ s.expanded, cell n = w := fun w hw =>
    hw.resolve_right fun ⟨e, he, _⟩ => by cases he
  have hall : ∀ path (v b : ℤ × ℤ), Known s [] v →
      (v :: path).IsChain (Permitted c.obstacleMap) → (v :: path).getLast? = some b →
      Known s [] b := by
    intro path
    -- along the path, from each cell to the next
    induction path with
    | nil =>
      intro v b hv _ hlast
      obtain rfl : v = b := by simpa using hlast
      exact hv
    | cons w path ih =>
      intro v b hv hsteps hlast
      obtain ⟨hstep, hrest⟩ := List.isChain_cons_cons.mp hsteps
      obtain ⟨n, hn, rfl⟩ := hknown v hv
      refine ih w b ((h.next n hn w hstep).resolve_left ?_) hrest
        (by rwa [List.getLast?_cons_cons] at hlast)
      rintro ⟨current, es, hexpand, -⟩
      simp [hpoint] at hexpand
  rintro ⟨path, hpath⟩
  obtain ⟨path, rfl⟩ := List.head?_eq_some_iff.mp hpath.head
  obtain ⟨n, hn, hgoal⟩ := hknown _ (hall path _ _ h.pose hpath.steps hpath.last)
  exact h.notGoal n hn ⟨congrArg Prod.fst hgoal, congrArg Prod.snd hgoal⟩

/-! ### The steps of the search -/

omit [Zero R] [Add R] [LT R] [DecidableLT R] in
theorem Known.mono {opened' : List (Node R × R)} {w : ℤ × ℤ} (h : Known s opened w)
    (hexpanded : ∀ n ∈ s.expanded, n ∈ s'.expanded)
    (hopened : ∀ e ∈ opened, Known s' opened' (cell e.1)) : Known s' opened' w := by
  rcases h with ⟨n, hn, rfl⟩ | ⟨e, he, rfl⟩
  · exact .inl ⟨n, hexpanded n hn, rfl⟩
  · exact hopened e he

omit [Add R] in
theorem Covered.expand {e : Node R × R} {rest : List (Node R × R)}
    (h : Covered c s (e :: rest) closed) (hpoint : s.point = .head) (hgoal : ¬ AtGoal c e.1)
    (hexplored : Explored c s' rest (insertNode closed e.1 (c.estDistanceG e.1.x e.1.y)))
    (hpoint' : s'.point = .expand e.1 (ofNodes (neighborEntries c.obstacleMap e.1)))
    (hexpanded : s'.expanded = e.1 :: s.expanded) :
    Covered c s' rest (insertNode closed e.1 (c.estDistanceG e.1.x e.1.y)) := by
  have hknown : ∀ w, Known s (e :: rest) w → Known s' rest w := by
    intro w hw
    refine hw.mono (fun n hn => ?_) fun m hm => ?_
    · rw [hexpanded]
      exact .tail _ hn
    · rcases List.mem_cons.mp hm with rfl | hm
      · exact .inl ⟨m.1, by rw [hexpanded]; exact .head _, rfl⟩
      · exact .inr ⟨m, hm, rfl⟩
  refine ⟨hexplored, fun m hm => h.linked m (.tail e hm), ?_, ?_, hknown _ h.pose, ?_, ?_⟩
  · rw [hexpanded]
    exact List.forall_mem_cons.mpr ⟨h.linked e (.head rest), h.linkedExpanded⟩
  · rw [hexpanded]
    intro m hm
    rcases mem_insertNode.mp hm with rfl | hm
    · exact .head _
    · exact .tail _ (h.settled m hm)
  · rw [hexpanded]
    refine List.forall_mem_cons.mpr ⟨fun w hstep => .inl ?_, fun n hn w hstep => .inr ?_⟩
    · refine ⟨e.1, _, hpoint', rfl, (newNode w.1 w.2 0, 0), ?_, rfl⟩
      exact mem_neighborEntries_iff.mpr ⟨rfl, hstep⟩
    · refine hknown w ((h.next n hn w hstep).resolve_left ?_)
      rintro ⟨current, es, hexpand, -⟩
      simp [hpoint] at hexpand
  · rw [hexpanded]
    exact List.forall_mem_cons.mpr ⟨hgoal, h.notGoal⟩

omit [Add R] in
/-- A neighbour that is known when it has been looked at. -/
theorem Covered.looked {current : Node R} {n : Node R × R} {es opened' : List (Node R × R)}
    (h : Covered c s opened closed) (hpoint : s.point = .expand current (ofNodes (n :: es)))
    (hexplored : Explored c s' opened' closed) (hpoint' : s'.point = .expand current (ofNodes es))
    (hexpanded : s'.expanded = s.expanded)
    (hlinked : ∀ e ∈ opened', Linked c.obstacleMap c.poseCell e.1)
    (hopened : ∀ e ∈ opened, Known s' opened' (cell e.1)) (hn : Known s' opened' (cell n.1)) :
    Covered c s' opened' closed := by
  have hknown : ∀ w, Known s opened w → Known s' opened' w := fun w hw =>
    hw.mono (fun m hm => hexpanded ▸ hm) hopened
  refine ⟨hexplored, hlinked, ?_, ?_, hknown _ h.pose, ?_, ?_⟩
  · rw [hexpanded]
    exact h.linkedExpanded
  · rw [hexpanded]
    exact h.settled
  · rw [hexpanded]
    intro m hm w hstep
    rcases h.next m hm w hstep with ⟨current', es', hexpand, hcell, e, he, rfl⟩ | hw
    · rw [hpoint] at hexpand
      obtain ⟨rfl, hes⟩ := Point.expand.inj hexpand
      obtain rfl := ofNodes_injective hes
      rcases List.mem_cons.mp he with rfl | he
      · exact .inr hn
      · exact .inl ⟨current, es, hpoint', hcell, e, he, rfl⟩
    · exact .inr (hknown w hw)
  · rw [hexpanded]
    exact h.notGoal

omit [Add R] in
theorem Covered.done {current : Node R} (h : Covered c s opened closed)
    (hpoint : s.point = .expand current (ofNodes [])) (hexplored : Explored c s' opened closed)
    (hexpanded : s'.expanded = s.expanded) : Covered c s' opened closed := by
  have hknown : ∀ w, Known s opened w → Known s' opened w := fun w hw =>
    hw.mono (fun m hm => hexpanded ▸ hm) fun e he => .inr ⟨e, he, rfl⟩
  refine ⟨hexplored, h.linked, ?_, ?_, hknown _ h.pose, ?_, ?_⟩
  · rw [hexpanded]
    exact h.linkedExpanded
  · rw [hexpanded]
    exact h.settled
  · rw [hexpanded]
    intro m hm w hstep
    refine .inr (hknown w ((h.next m hm w hstep).resolve_left ?_))
    rintro ⟨current', es, hexpand, -, e, he, -⟩
    rw [hpoint] at hexpand
    obtain rfl := ofNodes_injective (Point.expand.inj hexpand).2
    cases he
  · rw [hexpanded]
    exact h.notGoal

theorem Covered.skip {current : Node R} {n : Node R × R} {es : List (Node R × R)}
    (h : Covered c s opened closed) (hpoint : s.point = .expand current (ofNodes (n :: es)))
    (hskip : (∃ m ∈ closed, nodeEqauls n.1 m.1 = true) ∨
      ∃ m ∈ opened, nodeEqauls n.1 m.1 = true ∧ ¬ tentGScore c current n.1 < m.1.gScore)
    (hexplored : Explored c s' opened closed) (hpoint' : s'.point = .expand current (ofNodes es))
    (hexpanded : s'.expanded = s.expanded) : Covered c s' opened closed := by
  refine h.looked hpoint hexplored hpoint' hexpanded h.linked (fun e he => .inr ⟨e, he, rfl⟩) ?_
  rcases hskip with ⟨m, hm, hsame⟩ | ⟨m, hm, hsame, -⟩
  · exact .inl ⟨m.1, hexpanded ▸ h.settled m hm, (nodeEqauls_iff_cell.mp hsame).symm⟩
  · exact .inr ⟨m, hm, (nodeEqauls_iff_cell.mp hsame).symm⟩

theorem Covered.enter {current : Node R} {n : Node R × R} {es : List (Node R × R)}
    (h : Covered c s opened closed) (hpoint : s.point = .expand current (ofNodes (n :: es)))
    (hexplored : Explored c s' (openWith c opened current n.1) closed)
    (hpoint' : s'.point = .expand current (ofNodes es)) (hexpanded : s'.expanded = s.expanded) :
    Covered c s' (openWith c opened current n.1) closed := by
  obtain ⟨hcurrent, hentry⟩ := h.explored.current hpoint
  obtain ⟨-, hstep⟩ := mem_neighborEntries_iff.mp hentry
  have hnew : Known s' (openWith c opened current n.1) (cell n.1) :=
    .inr ⟨_, mem_insertNode.mpr (.inl rfl), rfl⟩
  refine h.looked hpoint hexplored hpoint' hexpanded (fun e he => ?_) (fun e he => ?_) hnew
  · rcases mem_insertNode.mp he with rfl | he
    · exact .step _ (h.linkedExpanded current hcurrent) hstep
    · exact h.linked e (List.mem_of_mem_eraseP he)
  · -- an open node that the neighbour replaces is of its cell
    cases hsame : nodeEqauls e.1 n.1 with
    | true => exact nodeEqauls_iff_cell.mp hsame ▸ hnew
    | false =>
      refine .inr ⟨e, mem_insertNode.mpr (.inr ?_), rfl⟩
      exact (List.mem_eraseP_of_neg (by simp [hsame])).mpr he

/-- `goal_path` is written in the solution branch only. -/
theorem goalPath_step (hs : s' ∈ step c s ()) (hsolved : s'.point ≠ .solved) :
    s'.goalPath = s.goalPath := by
  have hadvance : ∀ u ∈ advance c s, u.point ≠ .solved → u.goalPath = s.goalPath := by
    intro u hu hpoint
    cases hs : s.point with
    | head =>
      simp only [advance, hs] at hu
      split at hu
      · obtain rfl := Option.some.inj hu
        rfl
      obtain ⟨⟨current, openSet⟩, -, hu⟩ := Option.bind_eq_some_iff.mp hu
      cases current with
      | none =>
        obtain rfl := Option.some.inj hu
        rfl
      | some current =>
        dsimp only at hu
        split at hu
        · simp only [Option.bind_eq_bind, Option.bind_eq_some_iff] at hu
          obtain ⟨_, -, _, -, _, -, hu⟩ := hu
          obtain rfl := Option.some.inj hu
          exact absurd rfl hpoint
        · simp only [Option.bind_eq_bind, Option.bind_eq_some_iff] at hu
          obtain ⟨_, -, _, -, hu⟩ := hu
          obtain rfl := Option.some.inj hu
          rfl
    | expand current neighbors =>
      simp only [advance, hs] at hu
      obtain ⟨⟨currNeigh, neighbors'⟩, -, hu⟩ := Option.bind_eq_some_iff.mp hu
      cases currNeigh with
      | none =>
        obtain rfl := Option.some.inj hu
        rfl
      | some currNeigh =>
        simp only [Option.bind_eq_bind, Option.bind_eq_some_iff] at hu
        obtain ⟨_, -, hu⟩ := hu
        obtain rfl := Option.some.inj hu
        rfl
    | solved | failed | crashed =>
      simp only [advance, hs] at hu
      obtain rfl := Option.some.inj hu
      rfl
  have hstep : s' = (advance c s).getD { s with point := .crashed } := by
    cases hpoint : s.point <;> simp only [step, hpoint, Option.mem_def, Option.some.injEq,
      reduceCtorEq] at hs
    · exact hs.symm
    · exact hs.symm
  cases hu : advance c s with
  | none =>
    rw [hstep, hu]
    rfl
  | some u =>
    rw [hu, Option.getD_some] at hstep
    subst hstep
    exact hadvance s' hu hsolved

/-! ### Runs -/

/-- Where a call is, that was given this `goal_path`. -/
def Outcome (c : Config R) (goalPath : NodeList R) (s : Search R) : Prop :=
  match s.point with
  | .head | .expand _ _ => s.goalPath = goalPath ∧ ∃ opened closed, Covered c s opened closed
  | .solved => IsPath c.obstacleMap c.poseCell c.goalCell ((nodes s.goalPath).map cell)
  | .failed => s.goalPath = goalPath ∧ ¬ Reachable c
  | .crashed => True

theorem Outcome.step (h : Outcome c goalPath s) (hs : s' ∈ step c s ()) :
    Outcome c goalPath s' := by
  obtain ⟨hold, opened, closed, h⟩ :
      s.goalPath = goalPath ∧ ∃ opened closed, Covered c s opened closed := by
    cases hpoint : s.point with
    | head | expand => simpa only [Outcome, hpoint] using h
    | solved | failed | crashed => simp [AStar.step, hpoint] at hs
  have hkept : ∀ {point}, s'.point = point → point ≠ .solved → s'.goalPath = goalPath := by
    rintro _ rfl hpoint
    rw [goalPath_step hs hpoint, hold]
  have hneighbors : ∀ current ns, s.point = .expand current ns → ∃ es, ns = ofNodes es :=
    fun current ns hpoint => (h.explored.neighbors current ns hpoint).2.imp fun _ hes => hes.1
  cases step_cases h.explored.holds hneighbors hs with
  | failed hpoint hopened _ hpoint' =>
    subst hopened
    simp only [Outcome, hpoint']
    exact ⟨hkept hpoint' (by simp), h.not_reachable hpoint⟩
  | solved e rest _ hopened hgoal _ hpath hpoint' =>
    subst hopened
    simp only [Outcome, hpoint', hpath]
    obtain ⟨path, hpath, hextract⟩ := (h.linked e (.head rest)).isPath
    have hcell : cell e.1 = c.goalCell := Prod.ext hgoal.1 hgoal.2
    rw [hextract, ← hcell]
    exact (List.append_nil path).symm ▸ hpath
  | expand e rest hpoint hopened hgoal hholds hpoint' hexpanded =>
    subst hopened
    have hexplored := explored_of_holds h.explored hs (by simp [hpoint']) hholds
    simp only [Outcome, hpoint']
    exact ⟨hkept hpoint' (by simp), _, _, h.expand hpoint hgoal hexplored hpoint' hexpanded⟩
  | done current hpoint hholds hpoint' hexpanded =>
    have hexplored := explored_of_holds h.explored hs (by simp [hpoint']) hholds
    simp only [Outcome, hpoint']
    exact ⟨hkept hpoint' (by simp), _, _, h.done hpoint hexplored hexpanded⟩
  | skip current n es hpoint hskip hholds hpoint' hexpanded =>
    have hexplored := explored_of_holds h.explored hs (by simp [hpoint']) hholds
    simp only [Outcome, hpoint']
    exact ⟨hkept hpoint' (by simp), _, _, h.skip hpoint hskip hexplored hpoint' hexpanded⟩
  | enter current n es hpoint _ _ _ hholds hpoint' hexpanded =>
    have hexplored := explored_of_holds h.explored hs (by simp [hpoint']) hholds
    simp only [Outcome, hpoint']
    exact ⟨hkept hpoint' (by simp), _, _, h.enter hpoint hexplored hpoint' hexpanded⟩
  | crashed _ _ _ _ _ _ _ _ _ hs' => simp only [Outcome, hs']

/-- **What `command` leaves.** For every map, pose, goal, distance and previous path, a call that
ends without meeting `NULL` leaves a path that is safe, if and only if the goal can be reached or
the previous path is safe on this map already. -/
theorem safe_iff (c : Config R) (hpath : Proper goalPath)
    (ht : Reaches (step c) (fun _ _ => True) (start c goalPath) t)
    (hend : t.point = .solved ∨ t.point = .failed) :
    Safe c ((nodes t.goalPath).map cell) ↔
      Reachable c ∨ Safe c ((nodes goalPath).map cell) := by
  have houtcome : Outcome c goalPath t :=
    ht.invariant ⟨rfl, _, _, covered_start c hpath⟩ fun s _ s' hs _ hs' => hs.step hs'
  rcases hend with hsolved | hfailed
  · simp only [Outcome, hsolved] at houtcome
    exact iff_of_true houtcome.safe (.inl ⟨_, houtcome⟩)
  · simp only [Outcome, hfailed] at houtcome
    rw [houtcome.1, or_iff_right houtcome.2]

/-- In the corridor there is a path. -/
theorem safe_corridor : ∃ t : Search ℝ, t.point = .solved ∧
    Safe (config corridorMap ⟨10, 10⟩ ⟨11, 10⟩) ((nodes t.goalPath).map cell) := by
  obtain ⟨t, ht, hsolved⟩ := corridor_solved
  have hstep : Permitted corridorMap (10, 10) (11, 10) :=
    ⟨by decide, by simp [Near], by decide, fun _ hne => absurd rfl hne⟩
  exact ⟨t, hsolved, (safe_iff _ proper_newList ht (.inl hsolved)).mpr
    (.inl ⟨[(10, 10), (11, 10)], rfl, rfl, .cons_cons hstep (.singleton _)⟩)⟩

/-- The map when the corridor is found to be blocked. -/
def blockedMap (x y : ℤ) : Bool := ¬ (y = 10 ∧ x = 10)

/-- A call that finds nothing to expand next to the pose. -/
theorem blocked_failed (hpath : Proper goalPath) (hgoal : c.poseCell ≠ c.goalCell)
    (hlist : neighborEntries c.obstacleMap (newNode c.pose.x c.pose.y (0 : R)) = []) :
    ∃ t, Reaches (step c) (fun _ _ => True) (start c goalPath) t ∧ t.point = .failed ∧
      t.expanded = [newNode c.pose.x c.pose.y 0] ∧ t.goalPath = goalPath := by
  have hnot : ¬ AtGoal c (newNode c.pose.x c.pose.y (0 : R)) := fun h =>
    hgoal (Prod.ext h.1 h.2)
  have hexpand := step_head_cons (explored_start c hpath).holds rfl hnot
  simp only [hlist] at hexpand
  have hreach : Reaches (step c) (fun _ _ => True) (start c goalPath) _ :=
    (Reaches.refl.tail trivial hexpand).tail trivial (step_expand_nil rfl)
  have hholds : Holds { start c goalPath with
      closedSet := ofNodes [(newNode c.pose.x c.pose.y 0, c.estDistanceG c.pose.x c.pose.y)]
      openSet := ofNodes []
      point := .head
      expanded := [newNode c.pose.x c.pose.y 0] } []
      [(newNode c.pose.x c.pose.y 0, c.estDistanceG c.pose.x c.pose.y)] := ⟨rfl, rfl, hpath⟩
  have hfail := step_head_nil (c := c) hholds rfl
  exact ⟨_, hreach.tail trivial hfail, rfl, rfl, rfl⟩

/-- The path through the corridor is still there when it is known to be blocked. -/
theorem not_safe_blocked : ∃ earlier t : Search ℝ,
    Reaches (step (config corridorMap ⟨10, 10⟩ ⟨11, 10⟩)) (fun _ _ => True)
      (start (config corridorMap ⟨10, 10⟩ ⟨11, 10⟩) newList) earlier ∧
    earlier.point = .solved ∧
    Reaches (step (config blockedMap ⟨10, 10⟩ ⟨11, 10⟩)) (fun _ _ => True)
      (start (config blockedMap ⟨10, 10⟩ ⟨11, 10⟩) earlier.goalPath) t ∧
    t.point = .failed ∧ (∀ n ∈ t.expanded, Inner n.x n.y) ∧
    ¬ Safe (config blockedMap ⟨10, 10⟩ ⟨11, 10⟩) ((nodes t.goalPath).map cell) := by
  obtain ⟨earlier, hearlier, hsolved⟩ := corridor_solved
  have houtcome : Outcome (config corridorMap ⟨10, 10⟩ ⟨11, 10⟩) newList earlier :=
    hearlier.invariant ⟨rfl, _, _, covered_start _ proper_newList⟩ fun s _ s' hs _ hs' => hs.step hs'
  simp only [Outcome, hsolved] at houtcome
  have hproper := (GoalPath.command _ .newList hearlier (.inl hsolved)).proper
  have hlist : neighborEntries blockedMap (newNode 10 10 (0 : ℝ)) = [] := by
    have hfilter : offsets.filter (fun o => (visit blockedMap 10 10 o.1 o.2).1) = [] := by decide
    rw [neighborEntries_eq, newNode, hfilter]
    rfl
  obtain ⟨t, ht, hfailed, hexpanded, hkept⟩ := blocked_failed (c := config blockedMap ⟨10, 10⟩ ⟨11, 10⟩)
    hproper (by decide) hlist
  refine ⟨earlier, t, hearlier, hsolved, ht, hfailed, ?_, ?_⟩
  · rw [hexpanded]
    exact List.forall_mem_singleton.mpr (by decide)
  · -- the old path ends in a cell that is not free any more
    rw [hkept]
    obtain ⟨path, hcells⟩ := List.head?_eq_some_iff.mp houtcome.head
    have hlast := houtcome.last
    rw [hcells] at hlast ⊢
    have hmem : ((11, 10) : ℤ × ℤ) ∈ path := by
      rcases List.mem_cons.mp (List.mem_of_getLast? hlast) with heq | hmem
      · exact absurd heq (by decide)
      · exact hmem
    rintro (hnil | ⟨-, -, hfree⟩)
    · cases hnil
    · exact absurd (hfree (11, 10) hmem) (by decide)

end S3RES.AStar
