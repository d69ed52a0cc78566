import S3RES.AStar.Lists

/-!
# Where the search goes, and how long it runs

No cell is expanded twice, and no open cell was expanded (`Explored`). `genNeighbors` does not
look whether a neighbour is on the map: it stays there exactly if the node is not at the edge
(`inGrid_neighborReads_iff`). So a run stays on the map, and then ends, exactly if it expands no
node at the edge (`onMap_iff`).
-/

namespace S3RES.AStar

open Mapping StepSystem

variable {R : Type*} {es : List (Node R × R)} {e n : Node R × R} {v : R}

/-! ### Cells -/

/-- The cell of a node. -/
def cell (n : Node R) : ℤ × ℤ := (n.x, n.y)

theorem nodeEqauls_iff_cell {n m : Node R} : nodeEqauls n m = true ↔ cell n = cell m := by
  rw [nodeEqauls_iff, cell, cell, Prod.mk.injEq]

theorem nodeEqauls_eq_false {n m : Node R} : nodeEqauls n m = false ↔ cell n ≠ cell m := by
  rw [← Bool.not_eq_true, nodeEqauls_iff_cell]

/-- The cells of the nodes are distinct. -/
def Distinct (es : List (Node R × R)) : Prop := es.Pairwise fun a b => cell a.1 ≠ cell b.1

/-- A cell that is taken out of a list of distinct cells is not there any more. -/
theorem Distinct.cell_ne (h : Distinct es)
    (he : e ∈ es.eraseP fun e => nodeEqauls e.1 n.1) : cell e.1 ≠ cell n.1 := by
  induction es with
  | nil => cases he
  | cons m es ih =>
    obtain ⟨hm, hes⟩ := List.pairwise_cons.mp h
    cases hsame : nodeEqauls m.1 n.1 with
    | true =>
      rw [List.eraseP_cons, hsame, cond_true] at he
      rw [← nodeEqauls_iff_cell.mp hsame]
      exact (hm e he).symm
    | false =>
      rw [List.eraseP_cons, hsame, cond_false] at he
      rcases List.mem_cons.mp he with rfl | he
      · exact nodeEqauls_eq_false.mp hsame
      · exact ih hes he

theorem Distinct.find?_eq (h : Distinct es) (he : e ∈ es) (hsame : cell n.1 = cell e.1) :
    es.find? (fun e => nodeEqauls n.1 e.1) = some e := by
  have hsome : (es.find? fun e => nodeEqauls n.1 e.1).isSome = true :=
    List.find?_isSome.mpr ⟨e, he, nodeEqauls_iff_cell.mpr hsame⟩
  obtain ⟨m, hm⟩ := Option.isSome_iff_exists.mp hsome
  have hfound := List.find?_some hm
  have hnodup : (es.map fun e => cell e.1).Nodup := List.pairwise_map.mpr h
  have heq : m = e := List.inj_on_of_nodup_map hnodup (List.mem_of_find?_eq_some hm) he
    ((nodeEqauls_iff_cell.mp hfound).symm.trans hsame)
  rw [hm, heq]

theorem Distinct.insertNode [LT R] [DecidableLT R] (h : Distinct es)
    (hne : ∀ e ∈ es, cell e.1 ≠ cell n.1) : Distinct (Mapping.insertNode es n.1 v) := by
  have hperm := List.perm_orderedInsert Before (n.1, v) es
  refine (hperm.pairwise_iff fun {_ _} hab => hab.symm).mpr ?_
  exact List.pairwise_cons.mpr ⟨fun e he => (hne e he).symm, h⟩

/-! ### The cells a run meets -/

variable [Zero R] [LT R] [DecidableLT R] [Add R] {c : Config R} {s s' t : Search R}
  {opened closed : List (Node R × R)} {goalPath : NodeList R}

/-- The cells are next to each other, or the same. -/
def Near (a b : ℤ × ℤ) : Prop := |b.1 - a.1| ≤ 1 ∧ |b.2 - a.2| ≤ 1

omit [Add R] in
theorem near_of_mem_neighborEntries {obstacleMap : ℤ → ℤ → Bool} {node : Node R}
    (he : e ∈ neighborEntries obstacleMap node) : Near (cell node) (cell e.1) := by
  obtain ⟨o, ho, -, rfl⟩ := mem_neighborEntries.mp he
  have hoffset : ∀ o ∈ offsets, |o.1| ≤ 1 ∧ |o.2| ≤ 1 := by decide
  simpa [Near, cell, newNode] using hoffset o ho

/-- Where a search has been. `closed` is given up when the solution is found. -/
structure Explored (c : Config R) (s : Search R) (opened closed : List (Node R × R)) : Prop where
  holds : Holds s opened closed
  neighbors : ∀ current ns, s.point = .expand current ns → current ∈ s.expanded ∧
    ∃ es, ns = ofNodes es ∧ ∀ e ∈ es, e ∈ neighborEntries c.obstacleMap current
  distinct : Distinct opened
  closed : s.point ≠ .solved → ∀ n ∈ s.expanded, ∃ m ∈ closed, m.1 = n
  disjoint : ∀ n ∈ s.expanded, ∀ m ∈ opened, cell m.1 ≠ cell n
  nodup : (s.expanded.map cell).Nodup
  near : ∀ m ∈ opened, cell m.1 = (c.pose.x, c.pose.y) ∨ ∃ n ∈ s.expanded, Near (cell n) (cell m.1)

omit [Add R] in
theorem explored_start (c : Config R) (hpath : Proper goalPath) :
    Explored c (start c goalPath)
      [(newNode c.pose.x c.pose.y 0, c.estDistanceG c.pose.x c.pose.y)] [] where
  holds := ⟨openSet_start c goalPath, rfl, hpath⟩
  neighbors := by
    intro current ns hpoint
    cases hpoint
  distinct := List.pairwise_singleton _ _
  closed := by
    intro _ n hn
    cases hn
  disjoint := by
    intro n hn
    cases hn
  nodup := List.nodup_nil
  near := by
    intro m hm
    rw [List.mem_singleton.mp hm]
    exact .inl rfl

omit [Add R] in
/-- At a neighbour. -/
theorem Explored.current {current : Node R} (h : Explored c s opened closed)
    (hpoint : s.point = .expand current (ofNodes (n :: es))) :
    current ∈ s.expanded ∧ n ∈ neighborEntries c.obstacleMap current := by
  obtain ⟨hmem, es', hes, hentries⟩ := h.neighbors _ _ hpoint
  obtain rfl := ofNodes_injective hes
  exact ⟨hmem, hentries n (.head es)⟩

omit [Add R] in
theorem Explored.rest {current : Node R} (h : Explored c s opened closed)
    (hpoint : s.point = .expand current (ofNodes (n :: es))) :
    ∀ current' ns, Point.expand current (ofNodes es) = .expand current' ns →
      current' ∈ s.expanded ∧ ∃ es, ns = ofNodes es ∧
        ∀ e ∈ es, e ∈ neighborEntries c.obstacleMap current' := by
  rintro _ _ ⟨⟩
  obtain ⟨hmem, es', hes, hentries⟩ := h.neighbors _ _ hpoint
  obtain rfl := ofNodes_injective hes
  exact ⟨hmem, es, rfl, fun e he => hentries e (.tail n he)⟩

/-- What a step does to a search that has not crashed. -/
theorem Explored.step (h : Explored c s opened closed) (hs : s' ∈ step c s ()) :
    s' = { s with point := .crashed } ∨ ∃ opened' closed', Explored c s' opened' closed' := by
  have hneighbors : ∀ current ns, s.point = .expand current ns → ∃ es, ns = ofNodes es :=
    fun current ns hpoint => (h.neighbors current ns hpoint).2.imp fun _ hes => hes.1
  cases step_cases h.holds hneighbors hs with
  | failed hpoint hnil hholds hpoint' hexpanded =>
    refine .inr ⟨opened, closed, hholds, by simp [hpoint'], h.distinct, ?_, ?_, ?_, ?_⟩
    all_goals rw [hexpanded]
    · exact fun _ => h.closed (by simp [hpoint])
    · exact h.disjoint
    · exact h.nodup
    · exact h.near
  | solved e rest hpoint hopened _ hholds _ hpoint' hexpanded =>
    refine .inr ⟨[], [], hholds, by simp [hpoint'], .nil, by simp [hpoint'], by simp, ?_, by simp⟩
    rw [hexpanded]
    exact h.nodup
  | expand e rest hpoint hopened hgoal hholds hpoint' hexpanded =>
    obtain rfl := hopened
    obtain ⟨hne, hrest⟩ := List.pairwise_cons.mp h.distinct
    have hnew : ∀ n ∈ s.expanded, cell e.1 ≠ cell n := fun n hn => h.disjoint n hn e (.head rest)
    refine .inr ⟨rest, _, hholds, ?_, hrest, fun _ => ?_, ?_, ?_, ?_⟩
    · rw [hpoint', hexpanded]
      rintro _ _ ⟨⟩
      exact ⟨.head _, _, rfl, fun e' he' => he'⟩
    all_goals rw [hexpanded]
    · intro n hn
      rcases List.mem_cons.mp hn with rfl | hn
      · exact ⟨_, mem_insertNode.mpr (.inl rfl), rfl⟩
      · obtain ⟨m, hm, rfl⟩ := h.closed (by simp [hpoint]) n hn
        exact ⟨m, mem_insertNode.mpr (.inr hm), rfl⟩
    · intro n hn m hm
      rcases List.mem_cons.mp hn with rfl | hn
      · exact (hne m hm).symm
      · exact h.disjoint n hn m (.tail e hm)
    · rw [List.map_cons, List.nodup_cons]
      refine ⟨fun hmem => ?_, h.nodup⟩
      obtain ⟨n, hn, hsame⟩ := List.mem_map.mp hmem
      exact hnew n hn hsame.symm
    · intro m hm
      refine (h.near m (.tail e hm)).imp_right ?_
      rintro ⟨n, hn, hnear⟩
      exact ⟨n, .tail _ hn, hnear⟩
  | done current hpoint hholds hpoint' hexpanded =>
    refine .inr ⟨opened, closed, hholds, by simp [hpoint'], h.distinct, ?_, ?_, ?_, ?_⟩
    all_goals rw [hexpanded]
    · exact fun _ => h.closed (by simp [hpoint])
    · exact h.disjoint
    · exact h.nodup
    · exact h.near
  | skip current n es hpoint hskip hholds hpoint' hexpanded =>
    refine .inr ⟨opened, closed, hholds, ?_, h.distinct, ?_, ?_, ?_, ?_⟩
    all_goals rw [hexpanded]
    · rw [hpoint']
      exact h.rest hpoint
    · exact fun _ => h.closed (by simp [hpoint])
    · exact h.disjoint
    · exact h.nodup
    · exact h.near
  | enter current n es hpoint hclosed hbetter hleft hholds hpoint' hexpanded =>
    have hcell : ∀ n' ∈ s.expanded, cell n.1 ≠ cell n' := fun n' hn' => by
      obtain ⟨m, hm, rfl⟩ := h.closed (by simp [hpoint]) n' hn'
      exact nodeEqauls_eq_false.mp (hclosed m hm)
    have hsub := List.eraseP_sublist (l := opened) (p := fun e => nodeEqauls e.1 n.1)
    refine .inr ⟨_, closed, hholds, ?_, ?_, ?_, ?_, ?_, ?_⟩
    any_goals rw [hexpanded]
    · rw [hpoint']
      exact h.rest hpoint
    · exact Distinct.insertNode (n := (entered c current n.1, 0)) (h.distinct.sublist hsub)
        fun e he => h.distinct.cell_ne he
    · exact fun _ => h.closed (by simp [hpoint])
    · intro n' hn' m hm
      rcases mem_insertNode.mp hm with rfl | hm
      · exact hcell n' hn'
      · exact h.disjoint n' hn' m (hsub.subset hm)
    · exact h.nodup
    · intro m hm
      rcases mem_insertNode.mp hm with rfl | hm
      · obtain ⟨hmem, hentry⟩ := h.current hpoint
        have hnear := near_of_mem_neighborEntries hentry
        exact .inr ⟨current, hmem, hnear⟩
      · exact h.near m (hsub.subset hm)
  | crashed _ _ _ _ _ _ _ _ _ hs' => exact .inl hs'

/-- What a step does to a search, for the lists that the step leaves. -/
theorem explored_of_holds {opened' closed' : List (Node R × R)} (h : Explored c s opened closed)
    (hs : s' ∈ step c s ()) (hpoint : s'.point ≠ .crashed) (hholds : Holds s' opened' closed') :
    Explored c s' opened' closed' := by
  rcases h.step hs with rfl | ⟨o, cl, h'⟩
  · exact absurd rfl hpoint
  · obtain rfl := ofNodes_injective (h'.holds.openSet.symm.trans hholds.openSet)
    obtain rfl := ofNodes_injective (h'.holds.closedSet.symm.trans hholds.closedSet)
    exact h'

/-- Where a search has been that may have crashed. -/
def Charted (c : Config R) (s : Search R) : Prop :=
  ∃ s₀ opened closed, Explored c s₀ opened closed ∧ (s = s₀ ∨ s = { s₀ with point := .crashed })

omit [Add R] in
theorem charted_start (c : Config R) (hpath : Proper goalPath) : Charted c (start c goalPath) :=
  ⟨_, _, _, explored_start c hpath, .inl rfl⟩

theorem Charted.step (h : Charted c s) (hs : s' ∈ step c s ()) : Charted c s' := by
  obtain ⟨s₀, opened, closed, h₀, rfl | rfl⟩ := h
  · rcases h₀.step hs with rfl | ⟨opened', closed', h'⟩
    · exact ⟨s, opened, closed, h₀, .inr rfl⟩
    · exact ⟨s', opened', closed', h', .inl rfl⟩
  · simp [AStar.step] at hs

/-! ### Reads of the map -/

/-- The elements of `obstacle_map` that were read. -/
def mapReads (c : Config R) (s : Search R) : List (ℤ × ℤ) :=
  s.expanded.flatMap (neighborReads c.obstacleMap)

omit [Zero R] [LT R] [DecidableLT R] [Add R] in
/-- `genNeighbors` reads the map only, exactly if the node is not at its edge. -/
theorem inGrid_neighborReads_iff (obstacleMap : ℤ → ℤ → Bool) (node : Node R) :
    (∀ a ∈ neighborReads obstacleMap node, InGrid a.1 a.2) ↔ Inner node.x node.y := by
  -- the corners are read first, whatever the map is
  have hcorner : ∀ o ∈ offsets, |o.1| + |o.2| = 2 → ¬ (o.2 = 0 ∧ o.1 = 0) →
      (node.x + o.1, node.y + o.2) ∈ neighborReads obstacleMap node := by
    intro o ho hcorner hne
    refine List.mem_flatMap.mpr ⟨o, ho, ?_⟩
    rw [visit, if_neg hne, if_pos hcorner]
    split_ifs <;> exact .head _
  have hreads : ∀ a ∈ neighborReads obstacleMap node, ∃ o ∈ offsets,
      (a.1 = node.x ∨ a.1 = node.x + o.1) ∧ (a.2 = node.y ∨ a.2 = node.y + o.2) := by
    intro a ha
    obtain ⟨o, ho, ha⟩ := List.mem_flatMap.mp ha
    refine ⟨o, ho, ?_⟩
    rw [visit] at ha
    split_ifs at ha <;> grind
  constructor
  · intro h
    exact ⟨h _ (hcorner (-1, -1) (by decide) (by decide) (by decide)),
      h _ (hcorner (1, 1) (by decide) (by decide) (by decide))⟩
  · rintro ⟨hlow, hhigh⟩ a ha
    obtain ⟨o, ho, hx, hy⟩ := hreads a ha
    have hoffset : ∀ o ∈ offsets, -1 ≤ o.1 ∧ o.1 ≤ 1 ∧ -1 ≤ o.2 ∧ o.2 ≤ 1 := by decide
    have := hoffset o ho
    simp only [InGrid] at hlow hhigh ⊢
    omega

/-! ### Runs -/

/-- The search does not expand a node at the edge of the map. -/
def Inside (c : Config R) (s : Search R) : Prop :=
  ∀ n v rest, s.point = .head → s.openSet = ⟨some n, v⟩ :: rest → ¬ AtGoal c n → Inner n.x n.y

/-- What a step expands is inside exactly if the search is. -/
theorem inner_expanded_iff (h : Charted c s) (hs : s' ∈ step c s ()) :
    (∀ n ∈ s'.expanded, Inner n.x n.y) ↔ Inside c s ∧ ∀ n ∈ s.expanded, Inner n.x n.y := by
  obtain ⟨s₀, opened, closed, h₀, rfl | rfl⟩ := h
  · have hneighbors : ∀ current ns, s.point = .expand current ns → ∃ es, ns = ofNodes es :=
      fun current ns hpoint => (h₀.neighbors current ns hpoint).2.imp fun _ hes => hes.1
    have hother : s'.expanded = s.expanded → Inside c s →
        ((∀ n ∈ s'.expanded, Inner n.x n.y) ↔
          Inside c s ∧ ∀ n ∈ s.expanded, Inner n.x n.y) := by
      intro hexpanded hinside
      rw [hexpanded, and_iff_right hinside]
    have hwithin : ∀ {current ns}, s.point = .expand current ns → Inside c s := by
      intro current ns hpoint n v rest hhead
      simp [hpoint] at hhead
    cases step_cases h₀.holds hneighbors hs with
    | failed hpoint hnil _ _ hexpanded =>
      refine hother hexpanded fun n v rest _ hopen => ?_
      rw [h₀.holds.openSet, hnil] at hopen
      cases (List.cons.inj hopen).1
    | solved e rest hpoint hopened hgoal _ _ _ hexpanded =>
      refine hother hexpanded fun n v rest' _ hopen hnot => absurd hgoal ?_
      rw [h₀.holds.openSet, hopened] at hopen
      obtain ⟨⟨rfl⟩, -⟩ := Cell.mk.inj (List.cons.inj hopen).1
      exact hnot
    | expand e rest hpoint hopened hgoal _ _ hexpanded =>
      have hopenSet : s.openSet = full e :: rest.map full := by
        rw [h₀.holds.openSet, hopened, ofNodes_cons]
      have hinside : Inside c s ↔ Inner e.1.x e.1.y := by
        constructor
        · exact fun h => h e.1 e.2 _ hpoint hopenSet hgoal
        · intro hinner n v rest' _ hopen _
          rw [hopenSet] at hopen
          obtain ⟨⟨rfl⟩, -⟩ := Cell.mk.inj (List.cons.inj hopen).1
          exact hinner
      rw [hexpanded, List.forall_mem_cons, hinside]
    | done _ hpoint _ _ hexpanded => exact hother hexpanded (hwithin hpoint)
    | skip _ _ _ hpoint _ _ _ hexpanded => exact hother hexpanded (hwithin hpoint)
    | enter _ _ _ hpoint _ _ _ _ _ hexpanded => exact hother hexpanded (hwithin hpoint)
    | crashed _ _ _ hpoint _ _ _ _ _ hs' =>
      exact hother (by rw [hs']) (hwithin hpoint)
  · simp [AStar.step] at hs

/-- A run that follows the search. -/
theorem allSteps_inside_iff {as : List Unit} (h : Charted c s) (hrun : run (step c) as s = some t) :
    (∀ n ∈ t.expanded, Inner n.x n.y) ↔
      AllSteps (step c) (fun s _ => Inside c s) as s ∧ ∀ n ∈ s.expanded, Inner n.x n.y := by
  induction as generalizing s with
  | nil =>
    obtain rfl : s = t := by simpa using hrun
    exact (and_iff_right trivial).symm
  | cons a as ih =>
    obtain ⟨u, hu, hrest⟩ := Option.bind_eq_some_iff.mp hrun
    have hall : (∀ u ∈ step c s a, AllSteps (step c) (fun s _ => Inside c s) as u) ↔
        AllSteps (step c) (fun s _ => Inside c s) as u := by
      rw [Option.mem_def.mp hu]
      simp
    rw [ih (h.step hu) hrest, inner_expanded_iff h hu, AllSteps, hall, and_left_comm, and_assoc]

/-- Steps to the next expansion, or to the end. -/
def Point.ahead : Point R → ℕ
  | .head => 1
  | .expand _ neighbors => (nodes neighbors).length + 2
  | _ => 0

/-- An expansion allows for eleven steps. -/
theorem ahead_step_le (h : Charted c s) (hs : s' ∈ step c s ()) :
    s'.point.ahead + 1 + 11 * s.expanded.length ≤ s.point.ahead + 11 * s'.expanded.length := by
  obtain ⟨s₀, opened, closed, h₀, rfl | rfl⟩ := h
  · have hneighbors : ∀ current ns, s.point = .expand current ns → ∃ es, ns = ofNodes es :=
      fun current ns hpoint => (h₀.neighbors current ns hpoint).2.imp fun _ hes => hes.1
    cases step_cases h₀.holds hneighbors hs with
    | failed hpoint _ _ hpoint' hexpanded | solved _ _ hpoint _ _ _ _ hpoint' hexpanded =>
      simp [hpoint, hpoint', hexpanded, Point.ahead]
    | expand e _ hpoint _ _ _ hpoint' hexpanded =>
      have hle := length_neighborEntries_le c.obstacleMap e.1
      rw [hpoint, hpoint', hexpanded, Point.ahead, Point.ahead, nodes_ofNodes, List.length_map,
        List.length_cons]
      omega
    | done _ hpoint _ hpoint' hexpanded =>
      rw [hpoint, hpoint', hexpanded, Point.ahead, Point.ahead]
      omega
    | skip _ _ _ hpoint _ _ hpoint' hexpanded | enter _ _ _ hpoint _ _ _ _ hpoint' hexpanded =>
      simp only [hpoint, hpoint', hexpanded, Point.ahead, nodes_ofNodes, List.length_map,
        List.length_cons]
      omega
    | crashed _ _ _ hpoint _ _ _ _ _ hs' =>
      simp only [hs', hpoint, Point.ahead]
      omega
  · simp [AStar.step] at hs

/-- A run, by the expansions in it. -/
theorem length_run_le {as : List Unit} (hpath : Proper goalPath)
    (hrun : run (step c) as (start c goalPath) = some t) :
    Charted c t ∧ t.point.ahead + as.length ≤ 1 + 11 * t.expanded.length := by
  refine run_invariant
    (I := fun k s => Charted c s ∧ s.point.ahead + k ≤ 1 + 11 * s.expanded.length)
    ⟨charted_start c hpath, le_rfl⟩ ?_ hrun
  rintro k s ⟨⟩ s' ⟨hs, hle⟩ hs'
  have hstep := ahead_step_le hs hs'
  exact ⟨hs.step hs', by omega⟩

/-- A cell next to an inner one is on the map. -/
theorem inGrid_of_near {a b : ℤ × ℤ} (h : Near a b) (ha : Inner a.1 a.2) : InGrid b.1 b.2 := by
  obtain ⟨hlow, hhigh⟩ := ha
  obtain ⟨hx, hy⟩ := h
  rw [abs_le] at hx hy
  simp only [InGrid] at hlow hhigh ⊢
  omega

omit [Zero R] [LT R] [DecidableLT R] [Add R] in
/-- Cells of the map that are distinct. -/
theorem length_le_of_inGrid {l : List (Node R)} (hnodup : (l.map cell).Nodup)
    (hgrid : ∀ n ∈ l, InGrid n.x n.y) : l.length ≤ gridNum * gridNum := by
  have hsub : (l.map cell).toFinset ⊆
      Finset.Ico (0 : ℤ) gridNum ×ˢ Finset.Ico (0 : ℤ) gridNum := by
    intro a ha
    obtain ⟨n, hn, rfl⟩ := List.mem_map.mp (List.mem_toFinset.mp ha)
    obtain ⟨hx, hx', hy, hy'⟩ := hgrid n hn
    exact Finset.mem_product.mpr ⟨Finset.mem_Ico.mpr ⟨hx, hx'⟩, Finset.mem_Ico.mpr ⟨hy, hy'⟩⟩
  have hcard := Finset.card_le_card hsub
  rwa [List.toFinset_card_of_nodup hnodup, List.length_map, Finset.card_product, Int.card_Ico,
    sub_zero, Int.toNat_natCast] at hcard

/-- What the search does on the map: what it reads, where its open nodes are, and how long it
has run. -/
structure OnMap (c : Config R) (as : List Unit) (t : Search R) : Prop where
  reads : ∀ a ∈ mapReads c t, InGrid a.1 a.2
  opened : ∀ n ∈ nodes t.openSet, InGrid n.x n.y
  expansions : t.expanded.length ≤ gridNum * gridNum
  steps : as.length ≤ 11 * (gridNum * gridNum) + 1

omit [Add R] in
/-- A search that has expanded inner nodes only. -/
theorem Charted.onMap {as : List Unit} (h : Charted c t) (hpose : InGrid c.pose.x c.pose.y)
    (hlength : as.length ≤ 1 + 11 * t.expanded.length)
    (hinner : ∀ n ∈ t.expanded, Inner n.x n.y) : OnMap c as t := by
  have hgrid : ∀ n ∈ t.expanded, InGrid n.x n.y := fun n hn =>
    inGrid_of_near (a := cell n) (b := cell n) (by simp [Near]) (hinner n hn)
  obtain ⟨s₀, opened, closed, h₀, ht⟩ := h
  have hexpanded : t.expanded = s₀.expanded := by
    rcases ht with rfl | rfl <;> rfl
  have hopen : t.openSet = s₀.openSet := by
    rcases ht with rfl | rfl <;> rfl
  have hlen : t.expanded.length ≤ gridNum * gridNum := by
    refine length_le_of_inGrid ?_ hgrid
    rw [hexpanded]
    exact h₀.nodup
  refine ⟨?_, ?_, hlen, by omega⟩
  · intro a ha
    obtain ⟨n, hn, ha⟩ := List.mem_flatMap.mp ha
    exact (inGrid_neighborReads_iff c.obstacleMap n).mpr (hinner n hn) a ha
  · intro n hn
    rw [hopen, h₀.holds.openSet, nodes_ofNodes] at hn
    obtain ⟨m, hm, rfl⟩ := List.mem_map.mp hn
    rcases h₀.near m hm with hcell | ⟨n', hn', hnear⟩
    · obtain ⟨hx, hy⟩ := Prod.mk.inj hcell
      rwa [hx, hy]
    · rw [← hexpanded] at hn'
      exact inGrid_of_near hnear (hinner n' hn')

/-- **The search on the map.** A run stays on the map, within the bounds on its length, exactly if
it does not expand a node at the edge; if no run does, the call ends. -/
theorem onMap_iff (c : Config R) (hpath : GoalPath goalPath)
    (hpose : InGrid c.pose.x c.pose.y) :
    (∀ as t, run (step c) as (start c goalPath) = some t →
      (OnMap c as t ↔ AllSteps (step c) (fun s _ => Inside c s) as (start c goalPath))) ∧
    ((∀ as, AllSteps (step c) (fun s _ => Inside c s) as (start c goalPath)) →
      ∃ as t, run (step c) as (start c goalPath) = some t ∧ OnMap c as t ∧
        ∀ a, step c t a = none) := by
  have hiff : ∀ as t, run (step c) as (start c goalPath) = some t →
      (OnMap c as t ↔ AllSteps (step c) (fun s _ => Inside c s) as (start c goalPath)) := by
    intro as t hrun
    obtain ⟨hcharted, hlength⟩ := length_run_le hpath.proper hrun
    have hinner := allSteps_inside_iff (charted_start c hpath.proper) hrun
    constructor
    · intro h
      refine (hinner.mp fun n hn => ?_).1
      refine (inGrid_neighborReads_iff c.obstacleMap n).mp fun a ha => ?_
      exact h.reads a (List.mem_flatMap.mpr ⟨n, hn, ha⟩)
    · intro hall
      exact hcharted.onMap hpose (by omega) (hinner.mpr ⟨hall, fun n hn => by cases hn⟩)
  refine ⟨hiff, fun hinside => ?_⟩
  -- a run that is longer than the bound would not be on the map
  obtain ⟨as, t, hrun, -, hlength | hend⟩ :=
    exists_run (step c) (11 * (gridNum * gridNum) + 2) (start c goalPath)
  · have hsteps := ((hiff as t hrun).mpr (hinside as)).steps
    omega
  · exact ⟨as, t, hrun, (hiff as t hrun).mpr (hinside as), hend⟩

/-- The first expansion, at a pose that is not the goal. -/
theorem run_first (hpath : Proper goalPath)
    (hgoal : ¬ AtGoal c (newNode c.pose.x c.pose.y (0 : R))) :
    ∃ t, run (step c) [()] (start c goalPath) = some t ∧
      t.expanded = [newNode c.pose.x c.pose.y 0] := by
  have hstep := step_head_cons (explored_start c hpath).holds rfl hgoal
  rw [run_cons, hstep]
  exact ⟨_, rfl, rfl⟩

/-- The map without obstacles, and a pose in its corner. -/
noncomputable def edgeConfig : Config ℝ := config (fun _ _ => false) ⟨0, 0⟩ ⟨45, 45⟩

/-- The first expansion reads an element of `obstacle_map` that does not exist. -/
theorem not_onMap : InGrid edgeConfig.pose.x edgeConfig.pose.y ∧
    InGrid edgeConfig.goal.x edgeConfig.goal.y ∧
    ∃ t, run (step edgeConfig) [()] (start edgeConfig newList) = some t ∧
      (-1, -1) ∈ mapReads edgeConfig t ∧ ¬ OnMap edgeConfig [()] t := by
  obtain ⟨t, hrun, hexpanded⟩ := run_first (c := edgeConfig) proper_newList
    (by simp [AtGoal, edgeConfig, config, newNode])
  have hread : (-1, -1) ∈ mapReads edgeConfig t := by
    rw [mapReads, hexpanded, List.flatMap_singleton]
    exact .head _
  refine ⟨by decide, by decide, t, hrun, hread, fun h => ?_⟩
  exact absurd (h.reads _ hread) (by decide)

/-- The first expansion of a search inside the map. -/
theorem onMap_corner : ∃ t, run (step cornerConfig) [()] (start cornerConfig newList) = some t ∧
    OnMap cornerConfig [()] t := by
  obtain ⟨t, hrun, -⟩ := run_first (c := cornerConfig) proper_newList
    (by simp [AtGoal, cornerConfig, config, newNode])
  refine ⟨t, hrun, ((onMap_iff cornerConfig .newList (by decide)).1 [()] t hrun).mpr ?_⟩
  refine ⟨fun n v rest _ hopen _ => ?_, fun _ _ => trivial⟩
  rw [openSet_start] at hopen
  obtain ⟨⟨rfl⟩, -⟩ := Cell.mk.inj (List.cons.inj hopen).1
  decide

end S3RES.AStar
