import S3RES.AStar.Lifetimes
import S3RES.AStar.Safety
import S3RES.AStar.Shortest

/-!
# The search on the heap and the search on values

`S3RES.AStar.Search` has nodes as values, `S3RES.AStar.Addresses` has them on a heap. `Denotes` is
the value of a node on the heap: its fields, and the value of the node that its back link leads
to. `search_refines`: in every run of a call the two searches are at the same point, with nodes of
the same values in the same order in their lists (`Agrees`), and the path that is found goes
through the same cells. So what is proved of the search on values holds of the path on the heap
(`isPath_of_solved`, `shortest_of_solved`).
-/

namespace S3RES.NodeHeap

open AStar StepSystem

/-! ### Values of nodes -/

/-- The node at the address has this value. -/
inductive Denotes {R : Type} (heap : Heap (Node R)) : ℕ → Mapping.Node R → Prop
  | first {a : ℕ} {x y : ℤ} {g : R} (h : heap.object a = some ⟨x, y, g, none⟩) :
      Denotes heap a ⟨x, y, g, none⟩
  | linked {a b : ℕ} {x y : ℤ} {g : R} {m : Mapping.Node R}
      (h : heap.object a = some ⟨x, y, g, some b⟩) (hm : Denotes heap b m) :
      Denotes heap a ⟨x, y, g, some m⟩

/-- The nodes of a list have these values, and they are sorted by the same. -/
def Views {R : Type} (heap : Heap (Node R)) (es : List (ℕ × R)) (vs : List (Mapping.Node R × R)) :
    Prop :=
  List.Forall₂ (fun e v => Denotes heap e.1 v.1 ∧ e.2 = v.2) es vs

/-- The nodes are for the same cells. -/
def SameCells {R : Type} (heap : Heap (Node R)) (as : List ℕ) (ns : List (Mapping.Node R)) : Prop :=
  List.Forall₂ (fun a n => cellAt heap a = some (n.x, n.y)) as ns

variable {R : Type} {heap heap' : Heap (Node R)} {a b : ℕ} {n m : Mapping.Node R} {o : Node R}
  {es : List (ℕ × R)} {vs : List (Mapping.Node R × R)}

theorem Denotes.object (h : Denotes heap a n) :
    ∃ back, heap.object a = some ⟨n.x, n.y, n.gScore, back⟩ := by
  cases h with
  | first h => exact ⟨none, h⟩
  | linked h => exact ⟨_, h⟩

theorem Denotes.cellAt (h : Denotes heap a n) : cellAt heap a = some (n.x, n.y) := by
  obtain ⟨back, hobject⟩ := h.object
  rw [NodeHeap.cellAt, hobject]
  rfl

/-- A node that links to none has its value as long as it is not written. -/
theorem Denotes.congr_of_fresh (h : Denotes heap a n) (hfresh : n.backLink = none)
    (hsame : heap'.object a = heap.object a) : Denotes heap' a n := by
  cases h with
  | first h => exact .first (hsame.trans h)
  | linked => cases hfresh

theorem cellAt_eq_iff (hn : Denotes heap a n) (hm : Denotes heap b m) :
    cellAt heap a = cellAt heap b ↔ Mapping.nodeEqauls n m = true := by
  rw [hn.cellAt, hm.cellAt, Option.some.injEq, Prod.mk.injEq, Mapping.nodeEqauls_iff]

theorem Views.mono (h : Views heap es vs)
    (himp : ∀ a ∈ es.map (·.1), ∀ n, Denotes heap a n → Denotes heap' a n) :
    Views heap' es vs := by
  induction h with
  | nil => exact .nil
  | cons he _ ih => exact .cons ⟨himp _ (.head _) _ he.1, he.2⟩ (ih fun a ha => himp a (.tail _ ha))

theorem Views.congr_of_fresh (h : Views heap es vs) (hfresh : ∀ v ∈ vs, v.1.backLink = none)
    (hsame : ∀ a ∈ es.map (·.1), heap'.object a = heap.object a) : Views heap' es vs := by
  induction h with
  | nil => exact .nil
  | cons he _ ih =>
    obtain ⟨hv, hvs⟩ := List.forall_mem_cons.mp hfresh
    exact .cons ⟨he.1.congr_of_fresh hv (hsame _ (.head _)), he.2⟩
      (ih hvs fun a ha => hsame a (.tail _ ha))

theorem SameCells.congr {as : List ℕ} {ns : List (Mapping.Node R)} (h : SameCells heap as ns)
    (hsame : ∀ a ∈ as, cellAt heap' a = cellAt heap a) : SameCells heap' as ns := by
  induction h with
  | nil => exact .nil
  | cons ha _ ih =>
    exact .cons ((hsame _ (.head _)).trans ha) (ih fun a ha => hsame a (.tail _ ha))

/-! ### The lists -/

theorem Views.nil_iff (h : Views heap es vs) : es = [] ↔ vs = [] := by
  cases h <;> simp

theorem isSome_eq_of_rel {α β : Type*} {r : α → β → Prop} {x : Option α} {y : Option β}
    (h : Option.Rel r x y) : x.isSome = y.isSome := by
  cases h <;> rfl

theorem Views.found (h : Views heap es vs) (hn : Denotes heap a n) :
    Option.Rel (fun e v => Denotes heap e.1 v.1 ∧ e.2 = v.2) (found heap es a)
      (vs.find? fun v => Mapping.nodeEqauls n v.1) := by
  induction h with
  | nil => exact .none
  | @cons e v es vs he _ ih =>
    have hsame := cellAt_eq_iff hn he.1
    rw [NodeHeap.found, List.find?_cons, List.find?_cons]
    by_cases heq : NodeHeap.cellAt heap a = NodeHeap.cellAt heap e.1
    · rw [hsame.mp heq, decide_eq_true heq]
      exact .some he
    · rw [Bool.eq_false_iff.mpr (mt hsame.mpr heq), decide_eq_false heq]
      exact ih

theorem Views.without (h : Views heap es vs) (hn : Denotes heap a n) :
    Views heap (without heap es a) (vs.eraseP fun v => Mapping.nodeEqauls v.1 n) := by
  induction h with
  | nil => exact .nil
  | @cons e v es vs he hes ih =>
    have hsame := cellAt_eq_iff hn he.1
    rw [Mapping.nodeEqauls_comm] at hsame
    rw [NodeHeap.without, List.eraseP_cons, List.eraseP_cons]
    by_cases heq : NodeHeap.cellAt heap a = NodeHeap.cellAt heap e.1
    · rw [hsame.mp heq, decide_eq_true heq]
      exact hes
    · rw [Bool.eq_false_iff.mpr (mt hsame.mpr heq), decide_eq_false heq]
      exact .cons he ih

theorem Views.insert [LinearOrder R] (h : Views heap es vs) (hn : Denotes heap a n) (g : R) :
    Views heap (insertAddr es a g) (Mapping.insertNode vs n g) := by
  induction h with
  | nil => exact .cons ⟨hn, rfl⟩ .nil
  | cons he hes ih =>
    rw [insertAddr_cons, Mapping.insertNode_cons, he.2]
    split_ifs
    · exact .cons ⟨hn, rfl⟩ (.cons he hes)
    · exact .cons he ih

/-- What has a value keeps it when something is allocated. -/
theorem Denotes.alloc (h : Denotes heap a n) (o : Node R) : Denotes (heap.alloc o) a n := by
  induction h with
  | first h => exact .first (Heap.object_alloc o h)
  | linked h _ ih => exact .linked (Heap.object_alloc o h) ih

section Search

variable [Zero R] [LinearOrder R]

/-- The neighbours are those of the value. -/
theorem views_genNeighbors {obstacleMap : ℤ → ℤ → Bool} {ps : List (ℕ × R)}
    (hn : Denotes heap a n) (hgen : genNeighbors obstacleMap heap a = .ok (heap', ofAddrs ps)) :
    Views heap' ps (neighborEntries obstacleMap n) := by
  obtain ⟨back, hobject⟩ := hn.object
  have hfold : ∀ (l : List (ℤ × ℤ)) (heap : Heap (Node R)) (ps : List (ℕ × R)) vs,
      Views heap ps vs → ∀ r,
        l.foldlM (addNeighbor obstacleMap ⟨n.x, n.y, n.gScore, back⟩) (heap, ofAddrs ps) = .ok r →
          ∃ ps', r.2 = ofAddrs ps' ∧ Views r.1 ps' (l.foldl (insertNeighbor obstacleMap n) vs) := by
    intro l
    induction l with
    | nil =>
      intro heap ps vs h r hr
      obtain rfl := Except.ok.inj hr
      exact ⟨ps, rfl, h⟩
    | cons o l ih =>
      intro heap ps vs h r hr
      rw [List.foldlM_cons, NodeHeap.addNeighbor] at hr
      rw [List.foldl_cons, insertNeighbor]
      split_ifs at hr ⊢ with hvisit
      · rw [addNode_ofAddrs] at hr
        have hnew : Denotes (heap.alloc (newNode (n.x + o.1) (n.y + o.2) 0)) heap.next
            (Mapping.newNode (n.x + o.1) (n.y + o.2) 0) :=
          .first (Heap.object_alloc_next heap _)
        exact ih _ _ _ ((h.mono fun b _ m hm => hm.alloc _).insert hnew 0) r hr
      · exact ih _ _ _ h r hr
  rw [NodeHeap.genNeighbors, node_of_object hobject, ok_bind] at hgen
  obtain ⟨ps', hps, hviews⟩ := hfold offsets heap [] [] .nil _ hgen
  rwa [← ofAddrs_injective hps] at hviews

omit [LinearOrder R] in
/-- The path along the back links is that of the value. -/
theorem sameCells_extractPath (h : Denotes heap a n) {k : ℕ} {as bs : List ℕ}
    {list : Mapping.NodeList R}
    (hextract : NodeHeap.extractPath heap k (pushed as) (some a) = .ok (pushed bs))
    (has : SameCells heap as (Mapping.nodes list)) :
    SameCells heap bs (Mapping.nodes (AStar.extractPath list n)) := by
  induction h generalizing k as list with
  | @first a x y g h =>
    cases k with
    | zero => cases hextract
    | succ k =>
      rw [NodeHeap.extractPath, node_of_object h, ok_bind] at hextract
      have hend : NodeHeap.extractPath heap k (push (pushed as) a) none =
          .ok (pushed (a :: as) : NodeList R) := by
        cases k <;> rfl
      rw [hend] at hextract
      rw [← pushed_injective (Except.ok.inj hextract)]
      exact .cons (Denotes.first h).cellAt has
  | @linked a b x y g m h hm ih =>
    cases k with
    | zero => cases hextract
    | succ k =>
      rw [NodeHeap.extractPath, node_of_object h, ok_bind] at hextract
      have hrest : NodeHeap.extractPath heap k (pushed (a :: as)) (some b) = .ok (pushed bs) :=
        hextract
      exact ih hrest (.cons (Denotes.linked h hm).cellAt has)

variable [Add R] {c : Config R} {first current : ℕ} {opened closed : List (ℕ × R)}
  {ws : List (Mapping.Node R × R)} {p : Node R}

omit [Zero R] in
/-- A node of the two sets keeps its value as long as these are not written. -/
theorem Tree.denotes (h : Tree c heap first opened closed)
    (hsame : ∀ b ∈ both opened closed, heap'.object b = heap.object b) (hn : Denotes heap a n)
    (ha : a ∈ both opened closed) : Denotes heap' a n := by
  induction hn with
  | first ho => exact .first ((hsame _ ha).trans ho)
  | @linked a b x y g m ho _ ih =>
    refine .linked ((hsame a ha).trans ho) (ih ?_)
    rcases eq_or_ne a first with rfl | hne
    · cases h.root _ ho
    · obtain ⟨b', _, hback, hb', -⟩ := h.linked a ha hne _ ho
      obtain rfl := Option.some.inj hback
      exact List.mem_append_right _ hb'

/-! ### Neighbours -/

theorem skips_iff (hopened : Views heap opened vs) (hclosed : Views heap closed ws)
    (hn : Denotes heap a n) (hm : Denotes heap current m) (ho : heap.object a = some o)
    (hp : heap.object current = some p) :
    Skips c heap opened closed a o p ↔ (∃ w ∈ ws, Mapping.nodeEqauls n w.1 = true) ∨
      ∃ v ∈ vs.find? (fun v => Mapping.nodeEqauls n v.1),
        ¬ tentGScore c m n < v.1.gScore := by
  obtain ⟨back, hn'⟩ := hn.object
  obtain ⟨back', hm'⟩ := hm.object
  obtain rfl := Option.some.inj (hn'.symm.trans ho)
  obtain rfl := Option.some.inj (hm'.symm.trans hp)
  refine or_congr ?_ ?_
  · rw [← isSome_found, isSome_eq_of_rel (hclosed.found hn), List.find?_isSome]
  · have hrel := hopened.found hn
    generalize NodeHeap.found heap opened a = e at hrel ⊢
    generalize (vs.find? fun v => Mapping.nodeEqauls n v.1) = v at hrel ⊢
    cases hrel with
    | none => simp
    | some he =>
      obtain ⟨back'', he'⟩ := he.1.object
      simp [he', tentGScore]

/-! ### Runs -/

/-- The two sets hold nodes of the same values, in the same order. -/
structure Seen (c : Config R) (s : Search R) (opened closed : List (ℕ × R)) (t : AStar.Search R)
    (vs ws : List (Mapping.Node R × R)) : Prop where
  holds : Holds t vs ws
  opened : Views s.heap opened vs
  closed : Views s.heap closed ws
  goal : cellAt s.heap s.goalNode = some (c.goal.x, c.goal.y)

/-- So does the list of the neighbours of `current`. -/
structure Expanding (c : Config R) (heap : Heap (Node R)) (path : List ℕ) (s : Search R)
    (opened closed ps : List (ℕ × R)) (current : ℕ) (t : AStar.Search R)
    (vs ws us : List (Mapping.Node R × R)) (m : Mapping.Node R) : Prop where
  inv : Inv c heap path s opened closed (ps.map (·.1))
  seen : Seen c s opened closed t vs ws
  mem : current ∈ closed.map (·.1)
  lt : ∀ b ∈ ps.map (·.1), current < b
  denotes : Denotes s.heap current m
  views : Views s.heap ps us
  fresh : ∀ u ∈ us, u.1.backLink = none

/-- The two searches are at the same point, with nodes of the same values, or have found a path
through the same cells. -/
inductive Agrees (c : Config R) (heap : Heap (Node R)) (path : List ℕ) (s : Search R)
    (t : AStar.Search R) : Prop
  | head (opened closed : List (ℕ × R)) (vs ws : List (Mapping.Node R × R))
      (hinv : Inv c heap path s opened closed []) (hseen : Seen c s opened closed t vs ws)
      (hpoint : s.point = .head) (hpoint' : t.point = .head)
  | expand (opened closed ps : List (ℕ × R)) (current : ℕ) (vs ws us : List (Mapping.Node R × R))
      (m : Mapping.Node R) (h : Expanding c heap path s opened closed ps current t vs ws us m)
      (hpoint : s.point = .expand current (ofAddrs ps))
      (hpoint' : t.point = .expand m (Mapping.ofNodes us))
  | failed (hpoint : s.point = .failed) (hpoint' : t.point = .failed)
  | solved (hpoint : s.point = .solved) (hpoint' : t.point = .solved)
      (hpath : SameCells s.heap (addrs s.goalPath) (Mapping.nodes t.goalPath))
  | crashed (hpoint : s.point = .crashed .null) (hpoint' : t.point = .crashed)

variable {s s' : Search R} {t : AStar.Search R} {path : List ℕ} {e : ℕ × R}
  {v : Mapping.Node R × R}

theorem agrees_start (c : Config R) (heap : Heap (Node R)) (path : List ℕ)
    {goalPath : Mapping.NodeList R} (hgoalPath : Mapping.Proper goalPath) :
    Agrees c heap path (start c heap (pushed path)) (AStar.start c goalPath) := by
  have hfirst : (start c heap (pushed path)).heap.object heap.next =
      some (newNode c.pose.x c.pose.y 0) :=
    Heap.object_alloc _ (Heap.object_alloc_next heap _)
  have hgoal : (start c heap (pushed path)).heap.object (heap.next + 1) =
      some (newNode c.goal.x c.goal.y 0) :=
    Heap.object_alloc_next _ _
  refine .head _ _ [(Mapping.newNode c.pose.x c.pose.y 0, c.estDistanceG c.pose.x c.pose.y)] []
    (inv_start c heap path) ⟨⟨rfl, rfl, hgoalPath⟩, ?_, .nil, ?_⟩ rfl rfl
  · exact .cons ⟨.first hfirst, rfl⟩ .nil
  · change cellAt (start c heap (pushed path)).heap (heap.next + 1) = _
    rw [cellAt, hgoal]
    rfl

/-- At the head of the loop. -/
theorem head_step (hpath : Live heap path) (hnodup : path.Nodup)
    (hinv : Inv c heap path s opened closed []) (hseen : Seen c s opened closed t vs ws)
    (hpoint : s.point = .head) (hpoint' : t.point = .head) (hs : s' ∈ step c s ()) :
    ∃ t' ∈ AStar.step c t (), Agrees c heap path s' t' := by
  obtain ⟨hholds, hopened, hclosed, hgoalCell⟩ := hseen
  cases hopened with
  | nil =>
    rw [step_head_nil hinv hpoint] at hs
    obtain rfl := Option.some.inj hs
    exact ⟨_, AStar.step_head_nil hholds hpoint', .failed rfl rfl⟩
  | @cons e v rest vs he hrest =>
    obtain ⟨hn, -⟩ := he
    have hmem : e.1 ∈ both (e :: rest) closed := List.mem_append_left _ (.head _)
    have hatGoal : cellAt s.heap e.1 = cellAt s.heap s.goalNode ↔ AtGoal c v.1 := by
      rw [hn.cellAt, hgoalCell, Option.some.injEq, Prod.mk.injEq]
      rfl
    by_cases hgoal : AtGoal c v.1
    · obtain ⟨as, heap', hsolve, has, howns, hobject, k, heap₀, hextract, hsame⟩ :=
        solve_of_inv hinv hpath hnodup
      rw [step_head_goal hinv hpoint (hatGoal.mpr hgoal) hsolve] at hs
      obtain rfl := Option.some.inj hs
      refine ⟨_, AStar.step_head_goal hholds hpoint' hgoal, .solved rfl rfl ?_⟩
      rw [newList_eq_pushed] at hextract
      have hcells : SameCells heap₀ as (Mapping.nodes (AStar.extractPath Mapping.newList v.1)) :=
        sameCells_extractPath (hinv.tree.denotes hsame hn hmem) hextract .nil
      change SameCells heap' (addrs (pushed as)) _
      rw [addrs_pushed]
      refine hcells.congr fun b hb => ?_
      -- what is on the path is not freed
      have hkept : heap'.object b = s.heap.object b := by
        have hlive := howns.isSome hb
        rw [hobject] at hlive ⊢
        split_ifs at hlive ⊢
        · cases hlive
        · rfl
      rw [cellAt, hkept, cellAt, hsame b (has b hb)]
    · obtain ⟨back, hobject⟩ := hn.object
      obtain ⟨heap', ps, hneighbors, hlt, hsame, hinv'⟩ := inv_expand hinv hobject
      rw [step_head_cons hinv hpoint (mt hatGoal.mp hgoal) hobject hneighbors] at hs
      obtain rfl := Option.some.inj hs
      have hboth : ∀ b ∈ both (e :: rest) closed, heap'.object b = s.heap.object b := fun b hb =>
        hsame b (hinv.owns.lt_next (.tail _ hb))
      have hdenotes : ∀ b ∈ both (e :: rest) closed, ∀ m, Denotes s.heap b m → Denotes heap' b m :=
        fun b hb m hm => hinv.tree.denotes hboth hm hb
      have hclosed' : Views heap' (insertAddr closed e.1 (c.estDistanceG v.1.x v.1.y))
          (Mapping.insertNode ws v.1 (c.estDistanceG v.1.x v.1.y)) :=
        (hclosed.mono fun b hb => hdenotes b (List.mem_append_right _ hb)).insert
          (hdenotes e.1 hmem v.1 hn) _
      refine ⟨_, AStar.step_head_cons hholds hpoint' hgoal, .expand _ _ ps e.1 vs _ _ v.1
        ⟨hinv' _ rfl, ⟨⟨rfl, rfl, hholds.goalPath⟩, ?_, hclosed', ?_⟩, ?_, hlt,
          hdenotes e.1 hmem v.1 hn, views_genNeighbors hn hneighbors, fun u hu => ?_⟩ rfl rfl⟩
      · exact Views.mono hrest fun b hb => hdenotes b (List.mem_append_left _ (.tail _ hb))
      · change cellAt heap' s.goalNode = _
        rw [cellAt, hsame _ (hinv.owns.lt_next (.head _))]
        exact hgoalCell
      · exact (perm_map_insertAddr closed e.1 _).mem_iff.mpr (.head _)
      · obtain ⟨_, _, _, rfl⟩ := mem_neighborEntries.mp hu
        rfl

section Neighbour

variable {ps : List (ℕ × R)} {us : List (Mapping.Node R × R)} {u : Mapping.Node R × R}

theorem agrees_skip
    (h : Expanding c heap path s opened closed (e :: ps) current t vs ws (u :: us) m) :
    Agrees c heap path
      { s with
        heap := s.heap.free e.1
        openSet := ofAddrs opened
        point := .expand current (ofAddrs ps) }
      { t with openSet := Mapping.ofNodes vs, point := .expand m (Mapping.ofNodes us) } := by
  obtain ⟨hboth, hgoal, -, hpending⟩ := Inv.apart h.inv
  obtain ⟨-, hus⟩ := List.forall_mem_cons.mp h.fresh
  obtain ⟨-, hps⟩ := List.forall₂_cons.mp h.views
  have hsame : ∀ b, b ≠ e.1 → (s.heap.free e.1).object b = s.heap.object b := fun b hb =>
    Heap.object_free_of_ne _ hb
  have hdenotes : ∀ b ∈ both opened closed, ∀ n, Denotes s.heap b n →
      Denotes (s.heap.free e.1) b n := fun b hb n hn =>
    h.inv.tree.denotes (fun d hd => hsame d (ne_of_mem_of_not_mem hd hboth)) hn hb
  have hseen : Seen c
      { s with
        heap := s.heap.free e.1
        openSet := ofAddrs opened
        point := .expand current (ofAddrs ps) } opened closed
      { t with openSet := Mapping.ofNodes vs, point := .expand m (Mapping.ofNodes us) } vs ws := by
    refine ⟨⟨rfl, h.seen.holds.closedSet, h.seen.holds.goalPath⟩, ?_, ?_, ?_⟩
    · exact h.seen.opened.mono fun b hb => hdenotes b (List.mem_append_left _ hb)
    · exact h.seen.closed.mono fun b hb => hdenotes b (List.mem_append_right _ hb)
    · exact (cellAt_free hgoal).trans h.seen.goal
  exact .expand opened closed ps current vs ws us m
    { inv := inv_skip h.inv
      seen := hseen
      mem := h.mem
      lt b hb := h.lt b (.tail _ hb)
      denotes := hdenotes current (List.mem_append_right _ h.mem) m h.denotes
      views := Views.congr_of_fresh hps hus fun b hb => hsame b (hpending b hb).1
      fresh := hus } rfl rfl

/-- What is entered has the value that is entered. -/
theorem agrees_enter
    (h : Expanding c heap path s opened closed (e :: ps) current t vs ws (u :: us) m)
    {n' : Node R} (hn' : n' = ⟨u.1.x, u.1.y, tentGScore c m u.1, some current⟩)
    (hcell : cellAt s.heap e.1 ∉ closed.map fun e => cellAt s.heap e.1) :
    Agrees c heap path
      { s with
        heap := NodeHeap.entered s.heap opened e.1 n'
        openSet := ofAddrs (insertAddr (without s.heap opened e.1) e.1
          (n'.gScore + c.estDistanceG n'.x n'.y))
        point := .expand current (ofAddrs ps) }
      { t with
        openSet := Mapping.ofNodes (openWith c vs m u.1)
        point := .expand m (Mapping.ofNodes us) } := by
  obtain ⟨hboth, hgoal, hgoalOpen, hpending⟩ := Inv.apart h.inv
  obtain ⟨-, hus⟩ := List.forall_mem_cons.mp h.fresh
  obtain ⟨⟨hn, -⟩, hps⟩ := List.forall₂_cons.mp h.views
  obtain ⟨back, ho⟩ := hn.object
  obtain ⟨back', hp⟩ := h.denotes.object
  have hclosedNe : closed ≠ [] := by
    rintro rfl
    cases h.mem
  have htree : Tree c s.heap heap.next (without s.heap opened e.1) closed :=
    h.inv.tree.sublist hclosedNe List.eraseP_sublist
  have hdenotes : ∀ b ∈ both (without s.heap opened e.1) closed, ∀ n, Denotes s.heap b n →
      Denotes (NodeHeap.entered s.heap opened e.1 n') b n := fun b hb n hn =>
    htree.denotes (fun d hd => h.inv.tree.object_entered hboth n' hd) hn hb
  have hother : ∀ b, b ≠ e.1 → b ∉ opened.map (·.1) →
      (NodeHeap.entered s.heap opened e.1 n').object b = s.heap.object b := by
    refine fun b hb hb' => object_entered hb fun e' he' heq => hb' ?_
    exact heq ▸ List.mem_map_of_mem (List.mem_of_find?_eq_some he')
  have hself : (NodeHeap.entered s.heap opened e.1 n').object e.1 = some n' :=
    object_entered_self ho fun hmem => hboth (List.mem_append_left _ hmem)
  have hm := hdenotes current (List.mem_append_right _ h.mem) m h.denotes
  have hnew : Denotes (NodeHeap.entered s.heap opened e.1 n') e.1 (AStar.entered c m u.1) := by
    rw [hn'] at hself hm ⊢
    exact .linked hself hm
  have hopened : Views (NodeHeap.entered s.heap opened e.1 n')
      (insertAddr (without s.heap opened e.1) e.1 (n'.gScore + c.estDistanceG n'.x n'.y))
      (openWith c vs m u.1) := by
    have hinsert := ((h.seen.opened.without hn).mono fun b hb =>
      hdenotes b (List.mem_append_left _ hb)).insert hnew
        (tentGScore c m u.1 + c.estDistanceG u.1.x u.1.y)
    rw [hn'] at hinsert ⊢
    exact hinsert
  refine .expand _ closed ps current _ ws us m
    ⟨inv_enter h.inv h.mem (h.lt e.1 (.head _)) hp ho hn' hcell,
      ⟨⟨rfl, h.seen.holds.closedSet, h.seen.holds.goalPath⟩, hopened, ?_, ?_⟩, h.mem,
      fun b hb => h.lt b (.tail _ hb), hm, ?_, hus⟩ rfl rfl
  · exact h.seen.closed.mono fun b hb => hdenotes b (List.mem_append_right _ hb)
  · change cellAt (NodeHeap.entered s.heap opened e.1 n') s.goalNode = _
    rw [cellAt, hother _ hgoal hgoalOpen]
    exact h.seen.goal
  · exact Views.congr_of_fresh hps hus fun b hb => hother b (hpending b hb).1 (hpending b hb).2

end Neighbour

/-- At the neighbours of a node. -/
theorem expand_step {ps : List (ℕ × R)} {us : List (Mapping.Node R × R)}
    (h : Expanding c heap path s opened closed ps current t vs ws us m)
    (hpoint : s.point = .expand current (ofAddrs ps))
    (hpoint' : t.point = .expand m (Mapping.ofNodes us)) (hs : s' ∈ step c s ()) :
    ∃ t' ∈ AStar.step c t (), Agrees c heap path s' t' := by
  have hviews := h.views
  cases hviews with
  | nil =>
    rw [step_expand_nil hpoint] at hs
    obtain rfl := Option.some.inj hs
    obtain ⟨hinv, ⟨hholds, hopened, hclosed, hgoal⟩, -⟩ := h
    exact ⟨_, AStar.step_expand_nil hpoint', .head opened closed vs ws
      ⟨hinv.openSet, hinv.closedSet, hinv.goalPath, hinv.tree, hinv.owns, hinv.kept, hinv.le⟩
      ⟨⟨hholds.openSet, hholds.closedSet, hholds.goalPath⟩, hopened, hclosed, hgoal⟩ rfl rfl⟩
  | @cons e u ps us he hps =>
    obtain ⟨hn, -⟩ := he
    obtain ⟨back, ho⟩ := hn.object
    obtain ⟨back', hp⟩ := h.denotes.object
    have hopened := h.seen.opened
    have hleft := hopened.without hn
    have hskips := skips_iff (c := c) hopened h.seen.closed hn h.denotes ho hp
    have hvalue := AStar.step_expand_cons (c := c) h.seen.holds hpoint'
    rw [relax_eq] at hvalue
    rw [step_expand_cons h.inv hpoint] at hs
    by_cases hskip : Skips c s.heap opened closed e.1 ⟨u.1.x, u.1.y, u.1.gScore, back⟩
        ⟨m.x, m.y, m.gScore, back'⟩
    · rw [relax_of_skips c h.inv.tree.live ho hp hskip] at hs
      obtain rfl := Option.some.inj hs
      rw [if_pos (hskips.mp hskip)] at hvalue
      exact ⟨_, hvalue, agrees_skip h⟩
    rw [relax_of_not_skips c h.inv.tree.live ho hp hskip rfl, enters] at hs
    rw [if_neg (mt hskips.mpr hskip)] at hvalue
    by_cases honly : opened ≠ [] ∧ without s.heap opened e.1 = []
    · rw [if_pos honly] at hs
      obtain rfl := Option.some.inj hs
      rw [if_pos ⟨mt hopened.nil_iff.mpr honly.1, hleft.nil_iff.mp honly.2⟩] at hvalue
      exact ⟨_, hvalue, .crashed rfl rfl⟩
    · rw [if_neg honly] at hs
      obtain rfl := Option.some.inj hs
      rw [if_neg fun h => honly ⟨mt hopened.nil_iff.mp h.1, hleft.nil_iff.mpr h.2⟩] at hvalue
      exact ⟨_, hvalue, agrees_enter h rfl (not_or.mp hskip).1⟩

theorem Agrees.step (hpath : Live heap path) (hnodup : path.Nodup) (h : Agrees c heap path s t)
    (hs : s' ∈ NodeHeap.step c s ()) : ∃ t' ∈ AStar.step c t (), Agrees c heap path s' t' := by
  cases h with
  | head opened closed vs ws hinv hseen hpoint hpoint' =>
    exact head_step hpath hnodup hinv hseen hpoint hpoint' hs
  | expand opened closed ps current vs ws us m h hpoint hpoint' =>
    exact expand_step h hpoint hpoint' hs
  | failed hpoint | solved hpoint | crashed hpoint => simp [NodeHeap.step, hpoint] at hs

/-- **Refinement.** Whatever calls came before it, a run of a call on the heap is a run on values,
with nodes of the same values in the same order, and what it finds is a path through the same
cells. -/
theorem search_refines (c : Config R) {mem : Memory R} (hmem : Between mem)
    {goalPath : Mapping.NodeList R} (hgoalPath : Mapping.Proper goalPath)
    (hs : Reaches (step c) (fun _ _ => True) (start c mem.heap mem.goalPath) s) :
    ∃ t, Reaches (AStar.step c) (fun _ _ => True) (AStar.start c goalPath) t ∧
      Agrees c mem.heap (addrs mem.goalPath) s t := by
  obtain ⟨path, hpath, hlive, hnodup⟩ := hmem.stored
  have hlivePath : Live mem.heap path := fun b hb => hlive b (List.mem_append_right _ hb)
  rw [hpath] at hs
  rw [hpath, addrs_pushed]
  refine hs.invariant
    (I := fun s => ∃ t, Reaches (AStar.step c) (fun _ _ => True) (AStar.start c goalPath) t ∧
      Agrees c mem.heap path s t) ⟨_, .refl, agrees_start c mem.heap path hgoalPath⟩ ?_
  rintro s ⟨⟩ s' ⟨t, ht, h⟩ - hs'
  obtain ⟨t', ht', h'⟩ := h.step hlivePath hnodup.of_append_right hs'
  exact ⟨t', ht.tail trivial ht', h'⟩

omit [Zero R] [LinearOrder R] [Add R] in
theorem SameCells.filterMap {as : List ℕ} {ns : List (Mapping.Node R)} (h : SameCells heap as ns) :
    as.filterMap (cellAt heap) = ns.map AStar.cell := by
  induction h with
  | nil => rfl
  | cons ha _ ih =>
    rw [List.filterMap_cons_some ha, ih]
    rfl

/-- The cells of the path that has been found. -/
def Search.cells (s : Search R) : List (ℤ × ℤ) := (addrs s.goalPath).filterMap (cellAt s.heap)

/-- A path that is found on the heap is one of permitted steps to the goal, and none is found only
if there is none. -/
theorem isPath_of_solved (c : Config R) {mem : Memory R} (hmem : Between mem)
    (hs : Reaches (step c) (fun _ _ => True) (start c mem.heap mem.goalPath) s) :
    (s.point = .solved → IsPath c.obstacleMap c.poseCell c.goalCell s.cells) ∧
      (s.point = .failed → ¬ Reachable c) := by
  obtain ⟨t, ht, h⟩ := search_refines c hmem Mapping.proper_newList hs
  have houtcome : Outcome c Mapping.newList t :=
    ht.invariant ⟨rfl, _, _, covered_start c Mapping.proper_newList⟩ fun s _ s' hs _ hs' =>
      hs.step hs'
  cases h with
  | solved hpoint hpoint' hpath =>
    simp only [Outcome, hpoint'] at houtcome
    refine ⟨fun _ => ?_, by simp [hpoint]⟩
    rw [Search.cells, hpath.filterMap]
    exact houtcome
  | failed hpoint hpoint' =>
    simp only [Outcome, hpoint'] at houtcome
    exact ⟨by simp [hpoint], fun _ => houtcome.2⟩
  | head _ _ _ _ _ _ hpoint | expand _ _ _ _ _ _ _ _ _ hpoint | crashed hpoint => simp [hpoint]

end Search

/-- On exact reals no path of permitted steps is shorter than the one that is found on the heap. -/
theorem shortest_of_solved {obstacleMap : ℤ → ℤ → Bool} {pose goal : Mapping.PointI} {mem : Memory ℝ}
    {s : Search ℝ} (hmem : Between mem)
    (hs : Reaches (step (config obstacleMap pose goal)) (fun _ _ => True)
      (start (config obstacleMap pose goal) mem.heap mem.goalPath) s) (hsolved : s.point = .solved) :
    Shortest obstacleMap pose goal s.cells := by
  obtain ⟨t, ht, h⟩ := search_refines _ hmem Mapping.proper_newList hs
  have hsearched : Searched obstacleMap pose goal t := by
    refine ht.invariant ?_ fun s _ s' hs _ hs' => hs.step hs'
    exact informed_start Mapping.proper_newList
  cases h with
  | solved _ hpoint' hpath =>
    simp only [Searched, hpoint'] at hsearched
    rw [Search.cells, hpath.filterMap]
    exact hsearched
  | head _ _ _ _ _ _ hpoint | expand _ _ _ _ _ _ _ _ _ hpoint | failed hpoint
  | crashed hpoint => simp [hpoint] at hsolved

/-- The search that finds the goal next to the pose. -/
noncomputable def corridorSearch : Search ℝ :=
  follow (step (config corridorMap ⟨10, 10⟩ ⟨11, 10⟩)) [(), (), (), ()]
    (start (config corridorMap ⟨10, 10⟩ ⟨11, 10⟩) Heap.empty newList)

theorem reaches_corridorSearch : Reaches (step (config corridorMap ⟨10, 10⟩ ⟨11, 10⟩))
    (fun _ _ => True) (start (config corridorMap ⟨10, 10⟩ ⟨11, 10⟩) Heap.empty newList)
    corridorSearch :=
  reaches_follow (allSteps_true _ _) (by decide +kernel)

/-- Its path. -/
theorem isPath_of_solved_corridor :
    IsPath corridorMap (10, 10) (11, 10) corridorSearch.cells :=
  (isPath_of_solved (config corridorMap ⟨10, 10⟩ ⟨11, 10⟩) .start reaches_corridorSearch).1
    (by decide +kernel)

/-- There is none that is shorter. -/
theorem shortest_of_solved_corridor :
    Shortest corridorMap ⟨10, 10⟩ ⟨11, 10⟩ corridorSearch.cells :=
  shortest_of_solved .start reaches_corridorSearch (by decide +kernel)

end S3RES.NodeHeap
