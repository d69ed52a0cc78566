import S3RES.AStar.Ownership

/-!
# The nodes along the runs of the search

`Inv` says what is on the heap while `command` runs: the two sets with their links (`Tree`), the
neighbours that have still to be looked at and `goal_node`, and nothing else that the call has
allocated. Every step keeps it, until the search ends or `addNode` is given `NULL`
(`step_cases`).

Between two calls nodes are on `goal_path` or are the two that `sendWaypoints` has taken from it
(`Between.stored`). `search_state` puts this together for whole runs: what holds at the head of the
loop, and which nodes are freed at the exit with a solution.
-/

namespace S3RES.NodeHeap

open AStar StepSystem

variable {R : Type} [Zero R] [Add R] [LinearOrder R] {c : Config R} {heap heap' : Heap (Node R)}
  {first a b : ℕ} {opened closed es : List (ℕ × R)} {n m : Node R} {e : ℕ × R} {v : R}

/-! ### The steps of the search -/

omit [Add R] in
/-- `genNeighbors` allocates the nodes that it lists. -/
theorem genNeighbors_of_object (obstacleMap : ℤ → ℤ → Bool) (hn : heap.object a = some n) :
    ∃ heap' ps, genNeighbors obstacleMap heap a = .ok (heap', ofAddrs ps) ∧
      (∀ b < heap.next, heap'.object b = heap.object b) ∧ heap.next ≤ heap'.next ∧
      (∀ b ∈ ps.map (·.1), heap.next ≤ b) ∧
      ∀ first l, heap.Owns first l → first ≤ heap.next →
        heap'.Owns first (ps.map (·.1) ++ l) := by
  have hfold : ∀ (l : List (ℤ × ℤ)) (h : Heap (Node R)) (ps : List (ℕ × R)),
      ∃ h' ps', l.foldlM (addNeighbor obstacleMap n) (h, ofAddrs ps) = .ok (h', ofAddrs ps') ∧
        (∀ b < h.next, h'.object b = h.object b) ∧ h.next ≤ h'.next ∧
        (∀ b ∈ ps'.map (·.1), b ∈ ps.map (·.1) ∨ h.next ≤ b) ∧
        ∀ first l, h.Owns first (ps.map (·.1) ++ l) → first ≤ h.next →
          h'.Owns first (ps'.map (·.1) ++ l) := by
    intro l
    induction l with
    | nil => exact fun h ps => ⟨h, ps, rfl, fun _ _ => rfl, le_rfl, fun _ => .inl, fun _ _ h _ => h⟩
    | cons o l ih =>
      intro h ps
      rw [List.foldlM_cons, addNeighbor]
      split_ifs with hvisit
      · obtain ⟨h', ps', hfold, hsame, hle, hmem, howns⟩ :=
          ih (h.alloc (newNode (n.x + o.1) (n.y + o.2) 0)) (insertAddr ps h.next 0)
        have hperm := perm_map_insertAddr ps h.next (0 : R)
        refine ⟨h', ps', ?_, fun b hb => ?_, (Nat.le_succ _).trans hle, fun b hb => ?_,
          fun first l ho hfirst => howns first l ?_ (hfirst.trans (Nat.le_succ _))⟩
        · rw [addNode_ofAddrs]
          exact hfold
        · rw [hsame b (hb.trans (Nat.lt_succ_self _)), Heap.object_alloc_of_ne _ hb.ne]
        · rcases hmem b hb with hb | hb
          · rcases List.mem_cons.mp (hperm.mem_iff.mp hb) with rfl | hb
            · exact .inr le_rfl
            · exact .inl hb
          · exact .inr ((Nat.le_succ _).trans hb)
        · exact (ho.alloc hfirst _).perm (hperm.symm.append_right l)
      · exact ih h ps
  obtain ⟨heap', ps, hfold, hsame, hle, hmem, howns⟩ := hfold offsets heap []
  refine ⟨heap', ps, ?_, hsame, hle, fun b hb => (hmem b hb).resolve_left List.not_mem_nil, howns⟩
  rw [genNeighbors, node_of_object hn]
  exact hfold

/-- What `relax` can do with a neighbour. -/
inductive RelaxCase (c : Config R) (heap : Heap (Node R)) (opened closed : List (ℕ × R))
    (current a : ℕ) (n m : Node R) (r : Except Fault (Heap (Node R) × NodeList R)) : Prop
  /-- It is closed already, or open with a score that is not greater. -/
  | skip (hr : r = .ok (heap.free a, ofAddrs opened))
  /-- It is entered. -/
  | enter (n' : Node R) (hn' : n' = { n with
        backLink := some current
        gScore := m.gScore + c.estDistance n.x n.y m.x m.y })
      (hclosed : cellAt heap a ∉ closed.map fun e => cellAt heap e.1)
      (hr : r = .ok (entered heap opened a n', ofAddrs
        (insertAddr (without heap opened a) a (n'.gScore + c.estDistanceG n'.x n'.y))))
  /-- The node it replaces is the only one. -/
  | crashed (hr : r = .error .null)

/-- The neighbour is closed already, or open with a score that is not greater. -/
def Skips (c : Config R) (heap : Heap (Node R)) (opened closed : List (ℕ × R)) (a : ℕ)
    (n m : Node R) : Prop :=
  cellAt heap a ∈ closed.map (fun e => cellAt heap e.1) ∨
    ∃ e ∈ found heap opened a, ∃ o ∈ heap.object e.1,
      ¬ m.gScore + c.estDistance n.x n.y m.x m.y < o.gScore

/-- What `relax` does with a neighbour that it does not skip. -/
def enters (c : Config R) (heap : Heap (Node R)) (opened : List (ℕ × R)) (a : ℕ) (n' : Node R) :
    Except Fault (Heap (Node R) × NodeList R) :=
  if opened ≠ [] ∧ without heap opened a = [] then .error .null
  else .ok (entered heap opened a n', ofAddrs
    (insertAddr (without heap opened a) a (n'.gScore + c.estDistanceG n'.x n'.y)))

omit [Add R] in
theorem shorter_of_live (hlive : Live heap (opened.map (·.1))) (g : R) :
    ∃ b, shorter heap g ((found heap opened a).map (·.1)) = .ok b ∧
      (b = true ↔ ¬ ∃ e ∈ found heap opened a, ∃ o ∈ heap.object e.1, ¬ g < o.gScore) := by
  cases h : found heap opened a with
  | none => exact ⟨true, rfl, by simp⟩
  | some e =>
    obtain ⟨o, ho⟩ := Option.isSome_iff_exists.mp
      (hlive e.1 (List.mem_map_of_mem (List.mem_of_find?_eq_some h)))
    refine ⟨g < o.gScore, ?_, by simp [ho]⟩
    rw [Option.map_some, shorter, node_of_object ho]
    rfl

/-- A neighbour that is skipped is freed. -/
theorem relax_of_skips (c : Config R) (hlive : Live heap (both opened closed)) {current : ℕ}
    (hn : heap.object a = some n) (hm : heap.object current = some m)
    (hskips : Skips c heap opened closed a n m) :
    relax c heap (ofAddrs closed) (ofAddrs opened) current a =
      .ok (heap.free a, ofAddrs opened) := by
  have ha : (heap.object a).isSome := Option.isSome_of_eq_some hn
  have hopened : Live heap (opened.map (·.1)) := fun b hb => hlive b (List.mem_append_left _ hb)
  rw [relax, findNode_ofAddrs (fun b hb => hlive b (List.mem_append_right _ hb)) ha, ok_bind,
    Option.isSome_map]
  by_cases hclosed : cellAt heap a ∈ closed.map fun e => cellAt heap e.1
  · rw [if_pos (isSome_found.mpr hclosed), free_of_isSome ha]
    rfl
  · obtain ⟨better, hshorter, hbetter⟩ := shorter_of_live (a := a) hopened
      (m.gScore + c.estDistance n.x n.y m.x m.y)
    have hworse : ¬ better = true := fun h => hbetter.mp h (hskips.resolve_left hclosed)
    rw [if_neg fun h => hclosed (isSome_found.mp h)]
    simp only [node_of_object hn, node_of_object hm, findNode_ofAddrs hopened ha, ok_bind, hshorter,
      if_neg hworse, free_of_isSome ha]
    rfl

/-- The others are entered. -/
theorem relax_of_not_skips (c : Config R) (hlive : Live heap (both opened closed)) {current : ℕ}
    (hn : heap.object a = some n) (hm : heap.object current = some m)
    (hskips : ¬ Skips c heap opened closed a n m) {n' : Node R} (hn' : n' = { n with
      backLink := some current
      gScore := m.gScore + c.estDistance n.x n.y m.x m.y }) :
    relax c heap (ofAddrs closed) (ofAddrs opened) current a = enters c heap opened a n' := by
  obtain ⟨hclosed, hnot⟩ := not_or.mp hskips
  have ha : (heap.object a).isSome := Option.isSome_of_eq_some hn
  have hopened : Live heap (opened.map (·.1)) := fun b hb => hlive b (List.mem_append_left _ hb)
  obtain ⟨better, hshorter, hbetter⟩ := shorter_of_live (a := a) hopened
    (m.gScore + c.estDistance n.x n.y m.x m.y)
  rw [relax, findNode_ofAddrs (fun b hb => hlive b (List.mem_append_right _ hb)) ha, ok_bind,
    Option.isSome_map, if_neg fun h => hclosed (isSome_found.mp h)]
  simp only [node_of_object hn, node_of_object hm, findNode_ofAddrs hopened ha, ok_bind, hshorter,
    if_pos (hbetter.mpr hnot), ← hn']
  -- the cells are those from before
  have hcell : ∀ b, cellAt (heap.set a n') b = cellAt heap b := fun b => by
    rw [hn']
    exact cellAt_set hn b
  have hfound : found (heap.set a n') opened a = found heap opened a := by
    simp only [found, hcell]
  have hwithout : without (heap.set a n') opened a = without heap opened a := by
    simp only [without, hcell]
  have hscore : m.gScore + c.estDistance n.x n.y m.x m.y + c.estDistanceG n.x n.y =
      n'.gScore + c.estDistanceG n'.x n'.y := by
    rw [hn']
  rw [hscore, enters]
  rcases eq_or_ne opened [] with rfl | hne
  · have hremove : removeNode (heap.set a n') (ofAddrs ([] : List (ℕ × R))) a =
        .ok (heap.set a n', ofAddrs []) := rfl
    rw [hremove, ok_bind, addNode_ofAddrs, if_neg fun h => h.1 rfl]
    rfl
  · have hself : ((heap.set a n').object a).isSome := by
      rw [Heap.object_set_self n' hn]
      rfl
    have hlive' : Live (heap.set a n') (opened.map (·.1)) := by
      intro b hb
      rw [Heap.isSome_object_set]
      exact hopened b hb
    rw [removeNode_ofAddrs hne hlive' hself, hfound, hwithout, ok_bind]
    cases hleft : without heap opened a with
    | nil =>
      rw [if_pos ⟨hne, rfl⟩]
      rfl
    | cons e es =>
      rw [if_neg fun h => List.cons_ne_nil _ _ h.2, List.map_cons, ← ofAddrs_cons, addNode_ofAddrs]
      rfl

theorem relax_cases (c : Config R) (hlive : Live heap (both opened closed)) {current : ℕ}
    (hn : heap.object a = some n) (hm : heap.object current = some m) :
    RelaxCase c heap opened closed current a n m
      (relax c heap (ofAddrs closed) (ofAddrs opened) current a) := by
  by_cases hskips : Skips c heap opened closed a n m
  · exact .skip (relax_of_skips c hlive hn hm hskips)
  · rw [relax_of_not_skips c hlive hn hm hskips rfl, enters]
    split_ifs with honly
    · exact .crashed rfl
    · exact .enter _ rfl (not_or.mp hskips).1 rfl

/-- What `command` has on the heap, of which `path` is the old path. -/
structure Inv (c : Config R) (heap : Heap (Node R)) (path : List ℕ) (s : Search R)
    (opened closed : List (ℕ × R)) (pending : List ℕ) : Prop where
  openSet : s.openSet = ofAddrs opened
  closedSet : s.closedSet = ofAddrs closed
  goalPath : s.goalPath = pushed path
  tree : Tree c s.heap heap.next opened closed
  owns : s.heap.Owns heap.next (s.goalNode :: (pending ++ both opened closed))
  kept : ∀ b < heap.next, s.heap.object b = heap.object b
  le : heap.next ≤ s.heap.next

/-- Where `command` is, and the neighbours it has still to look at. -/
inductive At (s : Search R) (closed : List (ℕ × R)) : List ℕ → Prop
  | head (hpoint : s.point = .head) : At s closed []
  | expand (current : ℕ) (ps : List (ℕ × R)) (hpoint : s.point = .expand current (ofAddrs ps))
      (hcurrent : current ∈ closed.map (·.1)) (hlt : ∀ b ∈ ps.map (·.1), current < b) :
      At s closed (ps.map (·.1))

/-- What a step can do. -/
inductive StepCase (c : Config R) (heap : Heap (Node R)) (path : List ℕ) (s : Search R)
    (opened closed : List (ℕ × R)) (s' : Search R) : Prop
  /-- The search goes on. -/
  | running (opened' closed' : List (ℕ × R)) (pending : List ℕ)
      (h : Inv c heap path s' opened' closed' pending) (hat : At s' closed' pending)
  /-- The open set is empty. -/
  | failed (hpoint' : s'.point = .failed) (hheap : s'.heap = s.heap)
      (hgoalPath : s'.goalPath = s.goalPath)
  /-- The first node is at the goal. -/
  | solved (hpoint' : s'.point = .solved) (as : List ℕ) (hgoalPath : s'.goalPath = pushed as)
      (hmem : ∀ b ∈ as, b ∈ both opened closed) (howns : s'.heap.Owns heap.next as)
      (hobject : ∀ b, s'.heap.object b =
        if b = s.goalNode ∨ b ∈ path ∨ b ∈ both opened closed ∧ b ∉ as then none
        else s.heap.object b)
  /-- The node that a neighbour replaces is the only one. -/
  | crashed (hpoint' : s'.point = .crashed .null)

variable {s s' : Search R} {path : List ℕ}

theorem inv_start (c : Config R) (heap : Heap (Node R)) (path : List ℕ) :
    Inv c heap path (start c heap (pushed path))
      [(heap.next, c.estDistanceG c.pose.x c.pose.y)] [] [] := by
  have hfirst : (start c heap (pushed path)).heap.object heap.next =
      some (newNode c.pose.x c.pose.y 0) :=
    Heap.object_alloc _ (Heap.object_alloc_next heap _)
  have hboth : both [(heap.next, c.estDistanceG c.pose.x c.pose.y)] [] = [heap.next] := rfl
  have howns := ((Heap.owns_next heap).alloc le_rfl (newNode c.pose.x c.pose.y 0)).alloc
    (Nat.le_succ _) (newNode c.goal.x c.goal.y 0)
  refine ⟨rfl, rfl, rfl, ?_, howns, fun b hb => ?_, Nat.le_add_right _ 2⟩
  · refine ⟨fun a ha => ?_, ?_, List.pairwise_singleton _ _, fun e he hne => ?_, fun _ => ⟨rfl, rfl⟩,
      fun a ha hne => ?_, ?_, fun n hn => ?_⟩
    · obtain rfl := List.mem_singleton.mp ha
      rw [hfirst]
      rfl
    · rw [hboth]
      exact List.nodup_singleton _
    · exact absurd (congrArg Prod.fst (List.mem_singleton.mp he)) hne
    · exact absurd (List.mem_singleton.mp ha) hne
    · rw [hboth]
      exact List.mem_singleton_self _
    · rw [hfirst] at hn
      obtain rfl := Option.some.inj hn
      rfl
  · exact (Heap.object_alloc_of_ne _ (hb.trans (Nat.lt_succ_self _)).ne).trans
      (Heap.object_alloc_of_ne _ hb.ne)

/-- The solution branch. -/
theorem solve_of_inv {rest : List (ℕ × R)} (h : Inv c heap path s (e :: rest) closed [])
    (hpath : Live heap path) (hnodup : path.Nodup) :
    ∃ as heap', solve s (ofAddrs rest) e.1 = .ok { s with
        heap := heap', closedSet := [], openSet := [], goalPath := pushed as, point := .solved } ∧
      (∀ b ∈ as, b ∈ both (e :: rest) closed) ∧ heap'.Owns heap.next as ∧
      (∀ b, heap'.object b =
        if b = s.goalNode ∨ b ∈ path ∨ b ∈ both (e :: rest) closed ∧ b ∉ as then none
        else s.heap.object b) ∧
      ∃ k heap₀, extractPath heap₀ k newList (some e.1) = .ok (pushed as) ∧
        ∀ b ∈ both (e :: rest) closed, heap₀.object b = s.heap.object b := by
  have hgoal : s.goalNode ∉ both (e :: rest) closed := (List.nodup_cons.mp h.owns.nodup).1
  have hge : ∀ b ∈ both (e :: rest) closed, heap.next ≤ b := fun b hb => h.owns.le b (.tail _ hb)
  have hlt : ∀ b ∈ path, b < heap.next := fun b hb => Heap.lt_next_of_isSome (hpath b hb)
  have hgoalPath : s.goalNode ∉ path := fun hmem =>
    absurd (hlt _ hmem) (not_lt.mpr (h.owns.le _ (.head _)))
  have hmemHead : e.1 ∈ both (e :: rest) closed := List.mem_append_left _ (.head _)
  -- `goal_node` and the old path are freed first
  have hfree : free s.heap s.goalNode = .ok (s.heap.free s.goalNode) :=
    free_of_isSome (h.owns.isSome (.head _))
  have hlivePath : Live (s.heap.free s.goalNode) path := by
    refine Live.free (fun b hb => ?_) hgoalPath
    rw [h.kept b (hlt b hb)]
    exact hpath b hb
  set heap₀ := (s.heap.free s.goalNode).freeAll path with hheap₀
  have hobject₀ : ∀ b, heap₀.object b =
      if b = s.goalNode ∨ b ∈ path then none else s.heap.object b := by
    intro b
    rw [hheap₀, Heap.object_freeAll, Heap.object_free, ← ite_or, if_congr or_comm rfl rfl]
  have hsame : ∀ b ∈ both (e :: rest) closed, heap₀.object b = s.heap.object b := by
    intro b hb
    rw [hobject₀, if_neg]
    rintro (rfl | hmem)
    · exact hgoal hb
    · exact absurd (hlt b hmem) (not_lt.mpr (hge b hb))
  have hfuel : e.1 < heap₀.next := by
    rw [hheap₀, Heap.next_freeAll, Heap.next_free]
    exact h.owns.lt_next (.tail _ hmemHead)
  obtain ⟨as, hextract, hhead, has, -, hnodupAs⟩ :=
    extractPath_of_tree h.tree hsame heap₀.next hmemHead hfuel []
  obtain ⟨heap₁, heap₂, hrest, hclosed, hobject⟩ := erase_of_tree h.tree hsame hhead has
  have hmem : ∀ b ∈ as, b ∈ both (e :: rest) closed := by
    intro b hb
    rcases has b hb with rfl | hb
    · exact hmemHead
    · exact List.mem_append_right _ hb
  have hall : ∀ b, heap₂.object b =
      if b = s.goalNode ∨ b ∈ path ∨ b ∈ both (e :: rest) closed ∧ b ∉ as then none
      else s.heap.object b := by
    intro b
    rw [hobject, hobject₀, ← ite_or]
    exact if_congr (or_comm.trans or_assoc) rfl rfl
  rw [List.append_nil, ← newList_eq_pushed] at hextract
  refine ⟨as, heap₂, ?_, hmem, h.owns.keep (fun b hb => .tail _ (hmem b hb)) hnodupAs
    fun b hb => (hall b).trans (if_congr ?_ rfl rfl), hall, _, heap₀, hextract, hsame⟩
  · rw [solve, hfree, ok_bind, h.goalPath, eraseList_pushed hlivePath hnodup, ok_bind]
    simp only [← hheap₀]
    rw [hextract, ok_bind, hrest, ok_bind, h.closedSet, hclosed]
    rfl
  · -- the nodes of the old path do not count
    constructor
    · rintro (rfl | hbpath | ⟨hboth, hnot⟩)
      · exact ⟨.head _, fun hbas => hgoal (hmem _ hbas)⟩
      · exact absurd (hlt b hbpath) (not_lt.mpr hb)
      · exact ⟨.tail _ hboth, hnot⟩
    · rintro ⟨hbmem, hnot⟩
      exact (List.mem_cons.mp hbmem).imp_right fun hboth => .inr ⟨hboth, hnot⟩

/-- A node that is not at the goal is expanded. -/
theorem inv_expand {rest : List (ℕ × R)} (h : Inv c heap path s (e :: rest) closed [])
    (hn : s.heap.object e.1 = some n) :
    ∃ heap' ps, genNeighbors c.obstacleMap s.heap e.1 = .ok (heap', ofAddrs ps) ∧
      (∀ b ∈ ps.map (·.1), e.1 < b) ∧ (∀ b < s.heap.next, heap'.object b = s.heap.object b) ∧
      ∀ s', s' = { s with
          heap := heap'
          closedSet := ofAddrs (insertAddr closed e.1 (c.estDistanceG n.x n.y))
          openSet := ofAddrs rest
          point := .expand e.1 (ofAddrs ps) } →
        Inv c heap path s' rest (insertAddr closed e.1 (c.estDistanceG n.x n.y))
          (ps.map (·.1)) := by
  obtain ⟨heap', ps, hneighbors, hsame, hle, hnew, howns⟩ :=
    genNeighbors_of_object c.obstacleMap hn
  refine ⟨heap', ps, hneighbors, fun b hb => (Heap.lt_next hn).trans_le (hnew b hb), hsame, ?_⟩
  rintro s' rfl
  have hperm : (both (e :: rest) closed).Perm
      (both rest (insertAddr closed e.1 (c.estDistanceG n.x n.y))) :=
    (((perm_map_insertAddr closed e.1 _).append_left _).trans List.perm_middle).symm
  refine ⟨rfl, rfl, h.goalPath, ?_, ?_, fun b hb => ?_, h.le.trans hle⟩
  · refine (h.tree.expand _).congr fun b hb => hsame b ?_
    exact h.owns.lt_next (.tail _ (hperm.mem_iff.mpr hb))
  · refine (howns _ _ h.owns h.le).perm ?_
    exact List.perm_middle.trans (((hperm.append_left _)).cons _)
  · rw [← h.kept b hb]
    exact hsame b (hb.trans_le h.le)

/-- A neighbour is neither in the sets, nor `goal_node`, nor one of the others. -/
theorem Inv.apart {pending : List ℕ} (h : Inv c heap path s opened closed (a :: pending)) :
    a ∉ both opened closed ∧ s.goalNode ≠ a ∧ s.goalNode ∉ opened.map (·.1) ∧
      ∀ b ∈ pending, b ≠ a ∧ b ∉ opened.map (·.1) := by
  obtain ⟨hgoal, hnodup⟩ := List.nodup_cons.mp h.owns.nodup
  obtain ⟨hnot, hnodup⟩ := List.nodup_cons.mp hnodup
  refine ⟨fun hmem => hnot (List.mem_append_right _ hmem), fun heq => hgoal (heq ▸ .head _),
    fun hmem => hgoal (.tail _ (List.mem_append_right _ (List.mem_append_left _ hmem))),
    fun b hb => ⟨?_, fun hmem => ?_⟩⟩
  · rintro rfl
    exact hnot (List.mem_append_left _ hb)
  · exact (List.nodup_append.mp hnodup).2.2 b hb b (List.mem_append_left _ hmem) rfl

/-- A neighbour that is freed. -/
theorem inv_skip {pending : List ℕ} (h : Inv c heap path s opened closed (a :: pending))
    {point : Point R} :
    Inv c heap path { s with heap := s.heap.free a, openSet := ofAddrs opened, point := point }
      opened closed pending := by
  have howns : s.heap.Owns heap.next (a :: s.goalNode :: (pending ++ both opened closed)) :=
    h.owns.perm (.swap _ _ _)
  have hge : heap.next ≤ a := howns.le a (.head _)
  refine ⟨rfl, h.closedSet, h.goalPath, h.tree.congr fun b hb => ?_, howns.free, fun b hb => ?_,
    h.le⟩
  · exact Heap.object_free_of_ne _ (ne_of_mem_of_not_mem hb h.apart.1)
  · rw [← h.kept b hb]
    exact Heap.object_free_of_ne _ (by omega)

/-- A neighbour that is entered. -/
theorem inv_enter {pending : List ℕ} {current : ℕ} {n' : Node R}
    (h : Inv c heap path s opened closed (a :: pending))
    (hcurrent : current ∈ closed.map (·.1)) (hlt : current < a)
    (hm : s.heap.object current = some m) (hn : s.heap.object a = some n)
    (hn' : n' = { n with
      backLink := some current
      gScore := m.gScore + c.estDistance n.x n.y m.x m.y })
    (hcell : cellAt s.heap a ∉ closed.map fun e => cellAt s.heap e.1) {point : Point R} :
    Inv c heap path
      { s with
        heap := entered s.heap opened a n'
        openSet := ofAddrs (insertAddr (without s.heap opened a) a
          (n'.gScore + c.estDistanceG n'.x n'.y))
        point := point }
      (insertAddr (without s.heap opened a) a (n'.gScore + c.estDistanceG n'.x n'.y)) closed
      pending := by
  have ha : a ∉ both opened closed := h.apart.1
  have hge : heap.next ≤ a := h.owns.le a (.tail _ (.head _))
  have hset := h.owns.set a n'
  -- the addresses of the sets when the neighbour is there
  have hperm : (a :: both (without s.heap opened a) closed).Perm (both (insertAddr
      (without s.heap opened a) a (n'.gScore + c.estDistanceG n'.x n'.y)) closed) :=
    ((perm_map_insertAddr _ a _).append_right _).symm
  refine ⟨rfl, h.closedSet, h.goalPath,
    h.tree.enter hcurrent hm hn ha hlt hcell hn', ?_, fun b hb => ?_, ?_⟩
  · have hgoalPerm : ∀ l : List ℕ, (s.goalNode :: (a :: pending ++ l)).Perm
        (s.goalNode :: (pending ++ a :: l)) := fun l => (List.perm_middle.symm).cons _
    rw [entered]
    cases hfound : found s.heap opened a with
    | none =>
      rw [without_of_found_none hfound] at hperm ⊢
      exact hset.perm ((hgoalPerm _).trans ((hperm.append_left _).cons _))
    | some e =>
      have hopened : (both opened closed).Perm (e.1 :: both (without s.heap opened a) closed) :=
        ((perm_without hfound).map (·.1)).append_right _
      have hfirst : (s.goalNode :: (a :: pending ++ both opened closed)).Perm
          (e.1 :: s.goalNode :: (a :: pending ++ both (without s.heap opened a) closed)) :=
        (((hopened.append_left _).trans List.perm_middle).cons _).trans (.swap _ _ _)
      exact (hset.perm hfirst).free.perm ((hgoalPerm _).trans ((hperm.append_left _).cons _))
  · rw [← h.kept b hb]
    refine object_entered (by omega) fun e he => ?_
    have hmem : e.1 ∈ both opened closed :=
      List.mem_append_left _ (List.mem_map_of_mem (List.mem_of_find?_eq_some he))
    have hle := h.owns.le e.1 (.tail _ (List.mem_append_right _ hmem))
    omega
  · rw [entered]
    cases found s.heap opened a with
    | none => exact h.le
    | some e => exact h.le

/-! ### The steps -/

theorem step_head_nil (h : Inv c heap path s [] closed []) (hpoint : s.point = .head) :
    step c s () = some { s with openSet := ofAddrs [], point := .failed } := by
  simp only [step, hpoint, advance, h.openSet, isEmpty_ofAddrs, Bool.false_eq_true, if_false,
    pop_nil, ok_bind]
  rfl

theorem step_head_goal {rest : List (ℕ × R)} (h : Inv c heap path s (e :: rest) closed [])
    (hpoint : s.point = .head) (hgoal : cellAt s.heap e.1 = cellAt s.heap s.goalNode)
    (hsolve : solve s (ofAddrs rest) e.1 = .ok s') : step c s () = some s' := by
  have hlive := h.tree.live e.1 (List.mem_append_left _ (.head _))
  simp only [step, hpoint, advance, h.openSet, isEmpty_ofAddrs, Bool.false_eq_true, if_false,
    pop_cons, ok_bind, nodeEqauls_of_isSome hlive (h.owns.isSome (.head _)), hgoal, decide_true,
    if_true, hsolve]

theorem step_head_cons {rest ps : List (ℕ × R)} (h : Inv c heap path s (e :: rest) closed [])
    (hpoint : s.point = .head) (hgoal : cellAt s.heap e.1 ≠ cellAt s.heap s.goalNode)
    (hn : s.heap.object e.1 = some n)
    (hneighbors : genNeighbors c.obstacleMap s.heap e.1 = .ok (heap', ofAddrs ps)) :
    step c s () = some { s with
      heap := heap'
      closedSet := ofAddrs (insertAddr closed e.1 (c.estDistanceG n.x n.y))
      openSet := ofAddrs rest
      point := .expand e.1 (ofAddrs ps) } := by
  have hlive := h.tree.live e.1 (List.mem_append_left _ (.head _))
  simp only [step, hpoint, advance, h.openSet, isEmpty_ofAddrs, Bool.false_eq_true, if_false,
    pop_cons, ok_bind, nodeEqauls_of_isSome hlive (h.owns.isSome (.head _)), hgoal, decide_false,
    node_of_object hn, h.closedSet, addNode_ofAddrs, hneighbors]
  rfl

theorem step_expand_nil {current : ℕ} (hpoint : s.point = .expand current (ofAddrs [])) :
    step c s () = some { s with point := .head } := by
  simp only [step, hpoint, advance, pop_nil, ok_bind]
  rfl

theorem step_expand_cons {pending : List ℕ} {current : ℕ} {ps : List (ℕ × R)}
    (h : Inv c heap path s opened closed pending)
    (hpoint : s.point = .expand current (ofAddrs (e :: ps))) :
    step c s () =
      match relax c s.heap (ofAddrs closed) (ofAddrs opened) current e.1 with
      | .ok r => some { s with
          heap := r.1, openSet := r.2, point := .expand current (ofAddrs ps) }
      | .error fault => some { s with point := .crashed fault } := by
  simp only [step, hpoint, advance, pop_cons, ok_bind, h.closedSet, h.openSet]
  cases relax c s.heap (ofAddrs closed) (ofAddrs opened) current e.1 <;> rfl

/-- **What a step does.** -/
theorem step_cases {pending : List ℕ} (h : Inv c heap path s opened closed pending)
    (hat : At s closed pending) (hpath : Live heap path) (hnodup : path.Nodup)
    (hs : s' ∈ step c s ()) : StepCase c heap path s opened closed s' := by
  cases hat with
  | head hpoint =>
    cases opened with
    | nil =>
      rw [step_head_nil h hpoint] at hs
      obtain rfl := Option.some.inj hs
      exact .failed rfl rfl rfl
    | cons e rest =>
      by_cases hgoal : cellAt s.heap e.1 = cellAt s.heap s.goalNode
      · obtain ⟨as, heap', hsolve, has, howns, hobject, -⟩ := solve_of_inv h hpath hnodup
        rw [step_head_goal h hpoint hgoal hsolve] at hs
        obtain rfl := Option.some.inj hs
        exact .solved rfl as rfl has howns hobject
      · obtain ⟨n, hn⟩ := Option.isSome_iff_exists.mp
          (h.tree.live e.1 (List.mem_append_left _ (.head _)))
        obtain ⟨heap', ps, hneighbors, hlt, -, hinv⟩ := inv_expand h hn
        rw [step_head_cons h hpoint hgoal hn hneighbors] at hs
        obtain rfl := Option.some.inj hs
        exact .running _ _ _ (hinv _ rfl) (.expand e.1 ps rfl
          ((perm_map_insertAddr closed e.1 _).mem_iff.mpr (.head _)) hlt)
  | expand current ps hpoint hcurrent hlt =>
    cases ps with
    | nil =>
      rw [step_expand_nil hpoint] at hs
      obtain rfl := Option.some.inj hs
      exact .running _ _ _ ⟨h.openSet, h.closedSet, h.goalPath, h.tree, h.owns, h.kept, h.le⟩
        (.head rfl)
    | cons e ps =>
      obtain ⟨m, hm⟩ := Option.isSome_iff_exists.mp
        (h.tree.live current (List.mem_append_right _ hcurrent))
      obtain ⟨n, hn⟩ := Option.isSome_iff_exists.mp (h.owns.isSome (a := e.1)
        (.tail _ (.head _)))
      have hrest : ∀ b ∈ ps.map (·.1), current < b := fun b hb => hlt b (.tail _ hb)
      rw [step_expand_cons h hpoint] at hs
      cases relax_cases c h.tree.live hn hm with
      | skip hr =>
        rw [hr] at hs
        obtain rfl := Option.some.inj hs
        exact .running _ _ _ (inv_skip h) (.expand current ps rfl hcurrent hrest)
      | enter n' hn' hcell hr =>
        rw [hr] at hs
        obtain rfl := Option.some.inj hs
        exact .running _ _ _ (inv_enter h hcurrent (hlt e.1 (.head _)) hm hn hn' hcell)
          (.expand current ps rfl hcurrent hrest)
      | crashed hr =>
        rw [hr] at hs
        obtain rfl := Option.some.inj hs
        exact .crashed rfl

/-! ### Runs -/

/-- Where a call is, and what is left of the nodes from before it. -/
inductive Ran (c : Config R) (heap : Heap (Node R)) (path : List ℕ) (s : Search R) : Prop
  | running (opened closed : List (ℕ × R)) (pending : List ℕ)
      (h : Inv c heap path s opened closed pending) (hat : At s closed pending)
  | failed (hpoint : s.point = .failed) (hgoalPath : s.goalPath = pushed path)
      (hkept : ∀ b < heap.next, s.heap.object b = heap.object b)
  | solved (hpoint : s.point = .solved) (as : List ℕ) (hgoalPath : s.goalPath = pushed as)
      (howns : s.heap.Owns heap.next as)
      (hkept : ∀ b < heap.next, b ∉ path → s.heap.object b = heap.object b)
  | crashed (hpoint : s.point = .crashed .null)

theorem Ran.step (h : Ran c heap path s) (hpath : Live heap path) (hnodup : path.Nodup)
    (hs : s' ∈ step c s ()) : Ran c heap path s' := by
  cases h with
  | running opened closed pending hinv hat =>
    cases step_cases hinv hat hpath hnodup hs with
    | running opened' closed' pending' hinv' hat' => exact .running opened' closed' pending' hinv' hat'
    | failed hpoint' hheap hgoalPath =>
      refine .failed hpoint' (hgoalPath.trans hinv.goalPath) fun b hb => ?_
      rw [hheap, hinv.kept b hb]
    | solved hpoint' as hgoalPath _ howns hobject =>
      refine .solved hpoint' as hgoalPath howns fun b hb hnot => ?_
      rw [hobject, if_neg, hinv.kept b hb]
      rintro (rfl | hmem | ⟨hmem, -⟩)
      · exact absurd hb (not_lt.mpr (hinv.owns.le _ (.head _)))
      · exact hnot hmem
      · exact absurd hb (not_lt.mpr (hinv.owns.le b (.tail _ (List.mem_append_right _ hmem))))
    | crashed hpoint' => exact .crashed hpoint'
  | failed hpoint | solved hpoint | crashed hpoint => simp [NodeHeap.step, hpoint] at hs

theorem ran_of_reaches (hpath : Live heap path) (hnodup : path.Nodup)
    (h : Reaches (step c) (fun _ _ => True) (start c heap (pushed path)) s) :
    Ran c heap path s :=
  h.invariant (I := Ran c heap path) (.running _ _ _ (inv_start c heap path) (.head rfl))
    fun _ _ _ ht _ hu => ht.step hpath hnodup hu

/-! ### Between two calls -/

/-- The two nodes that `sendWaypoints` has taken from the path. -/
def held (m : Memory R) : List ℕ := m.currentGoal.toList ++ m.nCurrentGoal.toList

/-- These two and the nodes of the path are there, each once. -/
def Stored (m : Memory R) (path : List ℕ) : Prop :=
  m.goalPath = pushed path ∧ Live m.heap (held m ++ path) ∧ (held m ++ path).Nodup

omit [Add R] [LinearOrder R] [Zero R] in
theorem freeOption_of_live {o : Option ℕ} (h : Live heap o.toList) :
    freeOption heap o = .ok (heap.freeAll o.toList) := by
  cases o with
  | none => rfl
  | some a => exact free_of_isSome (h a (.head []))

omit [Add R] [LinearOrder R] in
theorem pop_pushed (path : List ℕ) :
    pop (pushed path : NodeList R) = .ok (path[0]?, pushed (path.drop 1)) := by
  cases path with
  | nil => rfl
  | cons a path =>
    cases path with
    | nil => rfl
    | cons b path => rfl

variable {mem mem' : Memory R}

omit [Add R] [LinearOrder R] in
/-- What `sendWaypoints` does to the nodes: the two that it has are freed, and the next two are
taken. -/
theorem sendWaypoints_of_stored (h : Stored mem path) :
    sendWaypoints mem true =
      .ok ⟨mem.heap.freeAll (held mem), pushed (path.drop 2), path[0]?, path[1]?⟩ := by
  obtain ⟨hgoalPath, hlive, hnodup⟩ := h
  have hcurrent : Live mem.heap mem.currentGoal.toList := fun b hb =>
    hlive b (List.mem_append_left _ (List.mem_append_left _ hb))
  have hnext : Live (mem.heap.freeAll mem.currentGoal.toList) mem.nCurrentGoal.toList := by
    intro b hb
    have hnot : b ∉ mem.currentGoal.toList := fun hmem =>
      (List.nodup_append.mp hnodup.of_append_left).2.2 b hmem b hb rfl
    rw [Heap.object_freeAll_of_notMem _ hnot]
    exact hlive b (List.mem_append_left _ (List.mem_append_right _ hb))
  have hheap : (mem.heap.freeAll mem.currentGoal.toList).freeAll mem.nCurrentGoal.toList =
      mem.heap.freeAll (held mem) := by
    rw [held, Heap.freeAll, Heap.freeAll, Heap.freeAll, List.foldl_append]
  rw [sendWaypoints, if_pos rfl, freeOption_of_live hcurrent, ok_bind, freeOption_of_live hnext,
    ok_bind, hheap, hgoalPath, pop_pushed, ok_bind]
  cases path with
  | nil => rfl
  | cons a path =>
    change (pop (pushed path) >>= fun p =>
      .ok (⟨mem.heap.freeAll (held mem), p.2, some a, p.1⟩ : Memory R)) = _
    rw [pop_pushed]
    rfl

omit [Add R] [LinearOrder R] in
theorem Stored.sendWaypoints {forceSend : Bool} (h : Stored mem path)
    (hmem : NodeHeap.sendWaypoints mem forceSend = .ok mem') : ∃ path', Stored mem' path' := by
  cases forceSend with
  | false =>
    obtain rfl := Except.ok.inj hmem
    exact ⟨path, h⟩
  | true =>
    rw [sendWaypoints_of_stored h] at hmem
    obtain rfl := Except.ok.inj hmem
    obtain ⟨-, hlive, hnodup⟩ := h
    obtain ⟨-, hpath, hdisjoint⟩ := List.nodup_append.mp hnodup
    -- the two that are taken are the first two of the path
    have hsplit : path[0]?.toList ++ path[1]?.toList ++ path.drop 2 = path := by
      cases path with
      | nil => rfl
      | cons a path =>
        cases path with
        | nil => rfl
        | cons b path => rfl
    refine ⟨path.drop 2, rfl, ?_, hsplit.symm ▸ hpath⟩
    change Live (mem.heap.freeAll (held mem)) (path[0]?.toList ++ path[1]?.toList ++ path.drop 2)
    rw [hsplit]
    intro b hb
    rw [Heap.object_freeAll_of_notMem _ fun hheld => hdisjoint b hheld b hb rfl]
    exact hlive b (List.mem_append_right _ hb)

/-- Between two calls the nodes are where they should be. -/
theorem Between.stored (h : Between mem) : ∃ path, Stored mem path := by
  induction h with
  | start =>
    refine ⟨[], rfl, fun b hb => ?_, List.nodup_nil⟩
    cases hb
  | sendWaypoints _ _ hm ih =>
    obtain ⟨path, hstored⟩ := ih
    exact hstored.sendWaypoints hm
  | @command mem t c _ ht hend ih =>
    obtain ⟨path, hgoalPath, hlive, hnodup⟩ := ih
    obtain ⟨hheld, hnodupPath, hdisjoint⟩ := List.nodup_append.mp hnodup
    have hlt : ∀ b ∈ held mem, b < mem.heap.next := fun b hb =>
      Heap.lt_next_of_isSome (hlive b (List.mem_append_left _ hb))
    have hlivePath : Live mem.heap path := fun b hb => hlive b (List.mem_append_right _ hb)
    rw [hgoalPath] at ht
    cases ran_of_reaches hlivePath hnodupPath ht with
    | failed _ hgoal hkept =>
      refine ⟨path, hgoal, fun b hb => ?_, hnodup⟩
      change (t.heap.object b).isSome
      rw [hkept b (Heap.lt_next_of_isSome (hlive b hb))]
      exact hlive b hb
    | solved _ as hgoal howns hkept =>
      refine ⟨as, hgoal, fun b hb => ?_, List.nodup_append.mpr ⟨hheld, howns.nodup, ?_⟩⟩
      · change (t.heap.object b).isSome
        rcases List.mem_append.mp hb with hb | hb
        · rw [hkept b (hlt b hb) fun hmem => hdisjoint b hb b hmem rfl]
          exact hlive b (List.mem_append_left _ hb)
        · exact howns.isSome hb
      · intro b hb d hd
        exact ((hlt b hb).trans_le (howns.le d hd)).ne
    | running _ _ _ _ hat =>
      cases hat <;> simp_all
    | crashed hpoint => simp [hpoint] at hend

/-! ### The search state -/

/-- At the head of the loop, in a call whose first node is at `first`: the nodes of the two sets
are there, no two for one cell, `open_set` ascends in the sum of the score and the distance to the
goal, and each node but the first is linked to a closed one, from which its score was computed. -/
structure HeadState (c : Config R) (first : ℕ) (s : Search R) : Prop where
  live : Live s.heap (addrs s.openSet ++ addrs s.closedSet)
  distinct : ((addrs s.openSet ++ addrs s.closedSet).map (cellAt s.heap)).Nodup
  ascending : (addrs s.openSet).Pairwise fun a b =>
    ∀ n ∈ s.heap.object a, ∀ m ∈ s.heap.object b,
      n.gScore + c.estDistanceG n.x n.y ≤ m.gScore + c.estDistanceG m.x m.y
  linked : ∀ a ∈ addrs s.openSet ++ addrs s.closedSet, a ≠ first →
    ∀ n ∈ s.heap.object a, ∃ b m, n.backLink = some b ∧ b ∈ addrs s.closedSet ∧
      s.heap.object b = some m ∧ n.gScore = m.gScore + c.estDistance n.x n.y m.x m.y

/-- At the exit with a solution, besides `goal_node` and the old path, exactly those nodes of the
two sets are freed that are not on the new path, and these are all that the call leaves. -/
structure FreesAllButPath (first : ℕ) (s s' : Search R) : Prop where
  path : ∀ a ∈ addrs s'.goalPath, a ∈ addrs s.openSet ++ addrs s.closedSet
  object : ∀ a, s'.heap.object a =
    if a = s.goalNode ∨ a ∈ addrs s.goalPath ∨
      a ∈ addrs s.openSet ++ addrs s.closedSet ∧ a ∉ addrs s'.goalPath then none
    else s.heap.object a
  left : s'.heap.Owns first (addrs s'.goalPath)

theorem Inv.headState {pending : List ℕ} (h : Inv c heap path s opened closed pending) :
    HeadState c heap.next s := by
  have hopened : addrs s.openSet = opened.map (·.1) := by rw [h.openSet, addrs_ofAddrs]
  have hclosed : addrs s.closedSet = closed.map (·.1) := by rw [h.closedSet, addrs_ofAddrs]
  have hboth : addrs s.openSet ++ addrs s.closedSet = both opened closed := by
    rw [hopened, hclosed, both]
  refine ⟨hboth ▸ h.tree.live, hboth ▸ h.tree.distinct, ?_, ?_⟩
  · rw [hopened, List.pairwise_map]
    by_cases hfirst : heap.next ∈ opened.map (·.1)
    · -- there is no other node in the open set
      obtain ⟨e, rfl⟩ := List.length_eq_one_iff.mp (h.tree.alone hfirst).2
      exact List.pairwise_singleton _ _
    · have hvalue : ∀ e ∈ opened, ∀ n ∈ s.heap.object e.1,
          e.2 = n.gScore + c.estDistanceG n.x n.y := fun e he =>
        h.tree.value e he fun heq => hfirst (heq ▸ List.mem_map_of_mem he)
      refine h.tree.sorted.imp_of_mem fun he he' hle n hn m hm => ?_
      rwa [← hvalue _ he n hn, ← hvalue _ he' m hm]
  · rw [hboth, hclosed]
    intro a ha hne n hn
    obtain ⟨b, m, hback, hb, hm, hscore, -⟩ := h.tree.linked a ha hne n hn
    exact ⟨b, m, hback, hb, hm, hscore⟩

/-- **The search state.** In every run of a call, whatever calls came before it: no node is used
or freed that has been freed, `HeadState` holds at the head of each iteration, and the exit with a
solution frees exactly the nodes that are not on the path. -/
theorem search_state (c : Config R) (hmem : Between mem) :
    ∀ s, Reaches (step c) (fun _ _ => True) (start c mem.heap mem.goalPath) s →
      (∀ fault, s.point = .crashed fault → fault = .null) ∧
        (s.point = .head → HeadState c mem.heap.next s) ∧
          ∀ s' ∈ step c s (), s'.point = .solved → FreesAllButPath mem.heap.next s s' := by
  intro s hs
  obtain ⟨path, hgoalPath, hlive, hnodup⟩ := hmem.stored
  have hpath : Live mem.heap path := fun b hb => hlive b (List.mem_append_right _ hb)
  rw [hgoalPath] at hs
  cases ran_of_reaches hpath hnodup.of_append_right hs with
  | running opened closed pending hinv hat =>
    refine ⟨fun fault hpoint => ?_, fun _ => hinv.headState, fun s' hs' hsolved => ?_⟩
    · cases hat <;> simp_all
    · cases step_cases hinv hat hpath hnodup.of_append_right hs' with
      | solved _ as hgoal hmem' howns hobject =>
        have hnew : addrs s'.goalPath = as := by rw [hgoal, addrs_pushed]
        have hold : addrs s.goalPath = path := by rw [hinv.goalPath, addrs_pushed]
        have hboth : addrs s.openSet ++ addrs s.closedSet = both opened closed := by
          rw [hinv.openSet, hinv.closedSet, addrs_ofAddrs, addrs_ofAddrs, both]
        refine ⟨?_, ?_, hnew.symm ▸ howns⟩
        · rw [hnew, hboth]
          exact hmem'
        · rw [hnew, hold, hboth]
          exact hobject
      | running _ _ _ _ hat' => cases hat' <;> simp_all
      | failed hpoint' | crashed hpoint' => simp [hpoint'] at hsolved
  | failed hpoint | solved hpoint => simp [hpoint, step]
  | crashed hpoint =>
    refine ⟨fun fault hfault => ?_, by simp [hpoint], by simp [hpoint, step]⟩
    rw [hpoint] at hfault
    exact (Point.crashed.inj hfault).symm

/-- A search on integers, for cells in a row. -/
def rowConfig : Config ℤ where
  obstacleMap x y := ¬ (y = 10 ∧ (x = 10 ∨ x = 11))
  pose := ⟨10, 10⟩
  goal := ⟨11, 10⟩
  estDistance x₁ y₁ x₂ y₂ := max |x₁ - x₂| |y₁ - y₂|

/-- The search that finds the goal next to the pose, at the head of its second iteration. -/
def rowSearch : Search ℤ := follow (step rowConfig) [(), (), ()] (start rowConfig Heap.empty newList)

/-- The goal is found in that iteration. -/
theorem search_state_row : HeadState rowConfig 0 rowSearch ∧
    ∃ s' ∈ step rowConfig rowSearch (), s'.point = .solved ∧ FreesAllButPath 0 rowSearch s' := by
  have hreach : Reaches (step rowConfig) (fun _ _ => True) (start rowConfig Heap.empty newList)
      rowSearch := reaches_follow (allSteps_true _ _) (by decide +kernel)
  have hstate := search_state rowConfig .start rowSearch hreach
  have hsolved : (step rowConfig rowSearch ()).any fun s' => s'.point = .solved := by
    decide +kernel
  obtain ⟨s', hs', hpoint⟩ := (Option.any_eq_true _ _).mp hsolved
  have hpoint' : s'.point = .solved := of_decide_eq_true hpoint
  exact ⟨hstate.2.1 (by decide +kernel), s', hs', hpoint', hstate.2.2 s' hs' hpoint'⟩

end S3RES.NodeHeap
