import S3RES.AStar.Search

/-!
# What one step of the search does to its lists

While the search has not crashed, its lists are those of the nodes they hold (`Holds`).
`step_cases` says once what a step can do to them; all that is proved of the search starts from
it.
-/

namespace S3RES.AStar

open Mapping StepSystem

variable {R : Type*} [Zero R] [LT R] [DecidableLT R] {e : Node R × R}

/-! ### Neighbours -/

/-- The loops of `genNeighbors`, on the nodes. -/
def insertNeighbor (obstacleMap : ℤ → ℤ → Bool) (node : Node R) (es : List (Node R × R))
    (o : ℤ × ℤ) : List (Node R × R) :=
  if (visit obstacleMap node.x node.y o.1 o.2).1 then
    insertNode es (newNode (node.x + o.1) (node.y + o.2) 0) 0
  else es

/-- The neighbours that `genNeighbors` lists. -/
def neighborEntries (obstacleMap : ℤ → ℤ → Bool) (node : Node R) : List (Node R × R) :=
  offsets.foldl (insertNeighbor obstacleMap node) []

theorem genNeighbors_eq (obstacleMap : ℤ → ℤ → Bool) (node : Node R) :
    genNeighbors obstacleMap node = some (ofNodes (neighborEntries obstacleMap node)) := by
  have hadd : ∀ (es : List (Node R × R)) o, addNeighbor obstacleMap node (ofNodes es) o =
      some (ofNodes (insertNeighbor obstacleMap node es o)) := by
    intro es o
    rw [addNeighbor, insertNeighbor]
    split
    · exact addNode_ofNodes es _ _
    · rfl
  have hfold : ∀ (l : List (ℤ × ℤ)) (es : List (Node R × R)),
      l.foldlM (addNeighbor obstacleMap node) (ofNodes es) =
        some (ofNodes (l.foldl (insertNeighbor obstacleMap node) es)) := by
    intro l
    induction l with
    | nil => exact fun es => rfl
    | cons o l ih =>
      intro es
      rw [List.foldlM_cons, hadd, Option.bind_eq_bind, Option.bind_some, ih, List.foldl_cons]
  exact hfold offsets []

/-- A neighbour is at an offset that was visited with success. -/
theorem mem_neighborEntries {obstacleMap : ℤ → ℤ → Bool} {node : Node R} :
    e ∈ neighborEntries obstacleMap node ↔ ∃ o ∈ offsets,
      (visit obstacleMap node.x node.y o.1 o.2).1 = true ∧
        e = (newNode (node.x + o.1) (node.y + o.2) 0, 0) := by
  have hinsert : ∀ es o, e ∈ insertNeighbor obstacleMap node es o ↔
      (visit obstacleMap node.x node.y o.1 o.2).1 = true ∧
        e = (newNode (node.x + o.1) (node.y + o.2) 0, 0) ∨ e ∈ es := by
    intro es o
    rw [insertNeighbor]
    split
    · rename_i hvisit
      rw [mem_insertNode, hvisit, eq_self, true_and]
    · rename_i hvisit
      simp only [hvisit, false_and, false_or, Bool.false_eq_true]
  have hfold : ∀ (l : List (ℤ × ℤ)) es, e ∈ l.foldl (insertNeighbor obstacleMap node) es ↔
      (∃ o ∈ l, (visit obstacleMap node.x node.y o.1 o.2).1 = true ∧
        e = (newNode (node.x + o.1) (node.y + o.2) 0, 0)) ∨ e ∈ es := by
    intro l
    induction l with
    | nil => simp
    | cons o l ih =>
      intro es
      rw [List.foldl_cons, ih, hinsert, or_left_comm, ← or_assoc]
      simp only [List.mem_cons, exists_eq_or_imp]
  rw [neighborEntries, hfold]
  simp

theorem length_neighborEntries_le (obstacleMap : ℤ → ℤ → Bool) (node : Node R) :
    (neighborEntries obstacleMap node).length ≤ 9 := by
  have hinsert : ∀ es o,
      (insertNeighbor obstacleMap node es o).length ≤ es.length + 1 := by
    intro es o
    rw [insertNeighbor]
    split
    · rw [length_insertNode]
    · omega
  have hfold : ∀ (l : List (ℤ × ℤ)) es,
      (l.foldl (insertNeighbor obstacleMap node) es).length ≤ es.length + l.length := by
    intro l
    induction l with
    | nil => exact fun es => le_rfl
    | cons o l ih =>
      intro es
      have hnext := ih (insertNeighbor obstacleMap node es o)
      have hone := hinsert es o
      rw [List.foldl_cons, List.length_cons]
      omega
  exact hfold offsets []

section Order

variable {R : Type*} [Zero R] [Preorder R] [DecidableLT R]

/-- The neighbours are listed in the order of the loops. -/
theorem neighborEntries_eq (obstacleMap : ℤ → ℤ → Bool) (node : Node R) :
    neighborEntries obstacleMap node =
      (offsets.filter fun o => (visit obstacleMap node.x node.y o.1 o.2).1).map fun o =>
        (newNode (node.x + o.1) (node.y + o.2) 0, 0) := by
  have hinsert : ∀ (es : List (Node R × R)) n, (∀ e ∈ es, e.2 = 0) →
      insertNode es n 0 = es ++ [(n, 0)] := by
    intro es n hzero
    induction es with
    | nil => rfl
    | cons e es ih =>
      have he : e.2 = 0 := hzero e (.head es)
      rw [insertNode_cons, if_neg (by simp [he]), ih fun e' he' => hzero e' (.tail e he'),
        List.cons_append]
  have hfold : ∀ (l : List (ℤ × ℤ)) (es : List (Node R × R)), (∀ e ∈ es, e.2 = 0) →
      l.foldl (insertNeighbor obstacleMap node) es =
        es ++ (l.filter fun o => (visit obstacleMap node.x node.y o.1 o.2).1).map fun o =>
          (newNode (node.x + o.1) (node.y + o.2) 0, 0) := by
    intro l
    induction l with
    | nil => exact fun es _ => (List.append_nil es).symm
    | cons o l ih =>
      intro es hzero
      rw [List.foldl_cons, List.filter_cons, insertNeighbor]
      split
      · rw [hinsert es _ hzero, ih, List.map_cons, List.append_assoc, List.singleton_append]
        intro e he
        rcases List.mem_append.mp he with he | he
        · exact hzero e he
        · rw [List.mem_singleton.mp he]
      · exact ih es hzero
  exact hfold offsets [] (by simp)

end Order

/-! ### One step -/

omit [LT R] [DecidableLT R] in
theorem proper_extractPath : ∀ (n : Node R) {list : NodeList R}, Proper list →
    Proper (extractPath list n)
  | ⟨_, _, _, none⟩, _, h => h.push _
  | ⟨_, _, _, some back⟩, _, h => proper_extractPath back (h.push _)

variable [Add R] {c : Config R} {s s' : Search R} {opened closed : List (Node R × R)}

/-- The lists hold these nodes. -/
structure Holds (s : Search R) (opened closed : List (Node R × R)) : Prop where
  openSet : s.openSet = ofNodes opened
  closedSet : s.closedSet = ofNodes closed
  goalPath : Proper s.goalPath

/-- The score of a neighbour that is reached from `current`. -/
def tentGScore (c : Config R) (current n : Node R) : R :=
  current.gScore + c.estDistance n.x n.y current.x current.y

/-- A neighbour as it goes into the open set. -/
def entered (c : Config R) (current n : Node R) : Node R :=
  { n with backLink := some current, gScore := tentGScore c current n }

/-- The open nodes when a neighbour has been entered, in the place of an open node of its cell if
there is one. -/
def openWith (c : Config R) (opened : List (Node R × R)) (current n : Node R) :
    List (Node R × R) :=
  insertNode (opened.eraseP fun e => nodeEqauls e.1 n) (entered c current n)
    (tentGScore c current n + c.estDistanceG n.x n.y)

/-- The node is at the goal. -/
def AtGoal (c : Config R) (n : Node R) : Prop := n.x = c.goal.x ∧ n.y = c.goal.y

/-- What a step can do. -/
inductive StepCase (c : Config R) (s : Search R) (opened closed : List (Node R × R))
    (s' : Search R) : Prop
  /-- The open set is empty. -/
  | failed (hpoint : s.point = .head) (hopened : opened = []) (hholds : Holds s' opened closed)
      (hpoint' : s'.point = .failed) (hexpanded : s'.expanded = s.expanded)
  /-- The first node is at the goal. -/
  | solved (e : Node R × R) (rest : List (Node R × R)) (hpoint : s.point = .head)
      (hopened : opened = e :: rest) (hgoal : AtGoal c e.1) (hholds : Holds s' [] [])
      (hpath : s'.goalPath = extractPath newList e.1) (hpoint' : s'.point = .solved)
      (hexpanded : s'.expanded = s.expanded)
  /-- The first node is expanded. -/
  | expand (e : Node R × R) (rest : List (Node R × R)) (hpoint : s.point = .head)
      (hopened : opened = e :: rest) (hgoal : ¬ AtGoal c e.1)
      (hholds : Holds s' rest (insertNode closed e.1 (c.estDistanceG e.1.x e.1.y)))
      (hpoint' : s'.point = .expand e.1 (ofNodes (neighborEntries c.obstacleMap e.1)))
      (hexpanded : s'.expanded = e.1 :: s.expanded)
  /-- There are no more neighbours. -/
  | done (current : Node R) (hpoint : s.point = .expand current (ofNodes []))
      (hholds : Holds s' opened closed) (hpoint' : s'.point = .head)
      (hexpanded : s'.expanded = s.expanded)
  /-- The neighbour is closed already, or open with a score that is not greater. -/
  | skip (current : Node R) (n : Node R × R) (es : List (Node R × R))
      (hpoint : s.point = .expand current (ofNodes (n :: es)))
      (hskip : (∃ m ∈ closed, nodeEqauls n.1 m.1 = true) ∨
        ∃ m ∈ opened, nodeEqauls n.1 m.1 = true ∧ ¬ tentGScore c current n.1 < m.1.gScore)
      (hholds : Holds s' opened closed) (hpoint' : s'.point = .expand current (ofNodes es))
      (hexpanded : s'.expanded = s.expanded)
  /-- The neighbour is entered. -/
  | enter (current : Node R) (n : Node R × R) (es : List (Node R × R))
      (hpoint : s.point = .expand current (ofNodes (n :: es)))
      (hclosed : ∀ m ∈ closed, nodeEqauls n.1 m.1 = false)
      (hbetter : ∀ m ∈ opened.find? (fun e => nodeEqauls n.1 e.1),
        tentGScore c current n.1 < m.1.gScore)
      (hleft : opened ≠ [] → (opened.eraseP fun e => nodeEqauls e.1 n.1) ≠ [])
      (hholds : Holds s' (openWith c opened current n.1) closed)
      (hpoint' : s'.point = .expand current (ofNodes es)) (hexpanded : s'.expanded = s.expanded)
  /-- The node that the neighbour replaces is the only one. -/
  | crashed (current : Node R) (n : Node R × R) (es : List (Node R × R))
      (hpoint : s.point = .expand current (ofNodes (n :: es)))
      (hclosed : ∀ m ∈ closed, nodeEqauls n.1 m.1 = false) (m : Node R × R)
      (hopened : opened = [m]) (hsame : nodeEqauls n.1 m.1 = true)
      (hbetter : tentGScore c current n.1 < m.1.gScore) (hs' : s' = { s with point := .crashed })

/-- What `relax` does: nothing, unless the neighbour is neither closed nor open with a score that
is not greater. -/
theorem relax_eq (c : Config R) (closed opened : List (Node R × R)) (current n : Node R) :
    relax c (ofNodes closed) (ofNodes opened) current n =
      if (∃ m ∈ closed, nodeEqauls n m.1 = true) ∨
          ∃ m ∈ opened.find? (fun e : Node R × R => nodeEqauls n e.1),
            ¬ tentGScore c current n < m.1.gScore then some (ofNodes opened)
      else if opened ≠ [] ∧ (opened.eraseP fun e => nodeEqauls e.1 n) = [] then none
      else some (ofNodes (openWith c opened current n)) := by
  have hadd := addNode_removeNode opened (entered c current n)
    (tentGScore c current n + c.estDistanceG n.x n.y)
  have hfound := isSome_findNode_ofNodes closed n
  have hall : ((findNode (ofNodes opened) n).all fun m =>
      current.gScore + c.estDistance n.x n.y current.x current.y < m.gScore) = true ↔
      ∀ m ∈ opened.find? (fun e => nodeEqauls n e.1), tentGScore c current n < m.1.gScore := by
    rw [findNode_ofNodes]
    cases opened.find? fun e => nodeEqauls n e.1 <;> simp [tentGScore]
  by_cases hclosed : ∃ m ∈ closed, nodeEqauls n m.1 = true
  · rw [relax, if_pos (hfound.mpr hclosed), if_pos (.inl hclosed)]
  · rw [relax, if_neg fun h => hclosed (hfound.mp h)]
    by_cases hbetter : ∀ m ∈ opened.find? (fun e => nodeEqauls n e.1),
        tentGScore c current n < m.1.gScore
    · have hneither : ¬ ((∃ m ∈ closed, nodeEqauls n m.1 = true) ∨
          ∃ m ∈ opened.find? (fun e => nodeEqauls n e.1),
            ¬ tentGScore c current n < m.1.gScore) := by
        rintro (h | ⟨m, hm, hnot⟩)
        · exact hclosed h
        · exact hnot (hbetter m hm)
      simp only [if_pos (hall.mpr hbetter)]
      rw [if_neg hneither]
      exact hadd
    · have hworse : ∃ m ∈ opened.find? (fun e => nodeEqauls n e.1),
          ¬ tentGScore c current n < m.1.gScore := by
        simpa using hbetter
      simp only [if_neg fun h => hbetter (hall.mp h)]
      rw [if_pos (.inr hworse)]

omit [Zero R] [LT R] [DecidableLT R] [Add R] in
/-- A list of which nothing is left without one of its nodes. -/
theorem exists_eq_singleton_of_eraseP {p : Node R × R → Bool} (hne : opened ≠ [])
    (h : opened.eraseP p = []) : ∃ m, opened = [m] ∧ p m = true := by
  cases opened with
  | nil => exact absurd rfl hne
  | cons m es =>
    cases hm : p m with
    | true =>
      rw [List.eraseP_cons_of_pos hm] at h
      exact ⟨m, by rw [h], hm⟩
    | false => simp [hm] at h

theorem step_head_nil (h : Holds s [] closed) (hpoint : s.point = .head) :
    step c s () = some { s with openSet := ofNodes [], point := .failed } := by
  have hadvance : advance c s = some { s with openSet := ofNodes [], point := .failed } := by
    rw [advance, hpoint]
    simp only [h.openSet, isEmpty_ofNodes, Bool.false_eq_true, if_false, pop_nil,
      Option.bind_eq_bind, Option.bind_some]
  simp only [step, hpoint, hadvance, Option.getD_some]

theorem step_head_goal (h : Holds s (e :: opened) closed) (hpoint : s.point = .head)
    (hgoal : AtGoal c e.1) :
    step c s () = some { s with
      goalPath := extractPath newList e.1, openSet := newList, closedSet := newList,
      point := .solved } := by
  have hsame : nodeEqauls e.1 (newNode c.goal.x c.goal.y 0) = true := nodeEqauls_iff.mpr hgoal
  have hadvance : advance c s = some { s with
      goalPath := extractPath newList e.1, openSet := newList, closedSet := newList,
      point := .solved } := by
    rw [advance, hpoint]
    simp only [h.openSet, isEmpty_ofNodes, Bool.false_eq_true, if_false, pop_cons,
      Option.bind_eq_bind, Option.bind_some, if_pos hsame, h.goalPath.eraseList, h.closedSet,
      eraseList_ofNodes]
  simp only [step, hpoint, hadvance, Option.getD_some]

theorem step_head_cons (h : Holds s (e :: opened) closed) (hpoint : s.point = .head)
    (hgoal : ¬ AtGoal c e.1) :
    step c s () = some { s with
      closedSet := ofNodes (insertNode closed e.1 (c.estDistanceG e.1.x e.1.y)),
      openSet := ofNodes opened,
      point := .expand e.1 (ofNodes (neighborEntries c.obstacleMap e.1)),
      expanded := e.1 :: s.expanded } := by
  have hother : ¬ nodeEqauls e.1 (newNode c.goal.x c.goal.y 0) = true := fun hsame =>
    hgoal (nodeEqauls_iff.mp hsame)
  have hadvance : advance c s = some { s with
      closedSet := ofNodes (insertNode closed e.1 (c.estDistanceG e.1.x e.1.y)),
      openSet := ofNodes opened,
      point := .expand e.1 (ofNodes (neighborEntries c.obstacleMap e.1)),
      expanded := e.1 :: s.expanded } := by
    rw [advance, hpoint]
    simp only [h.openSet, isEmpty_ofNodes, Bool.false_eq_true, if_false, pop_cons,
      Option.bind_eq_bind, Option.bind_some, if_neg hother, h.closedSet, addNode_ofNodes,
      genNeighbors_eq]
  simp only [step, hpoint, hadvance, Option.getD_some]

theorem step_expand_nil {current : Node R} (hpoint : s.point = .expand current (ofNodes [])) :
    step c s () = some { s with point := .head } := by
  have hadvance : advance c s = some { s with point := .head } := by
    rw [advance, hpoint]
    simp only [pop_nil, Option.bind_eq_bind, Option.bind_some]
  simp only [step, hpoint, hadvance, Option.getD_some]

theorem step_expand_cons {current : Node R} {es : List (Node R × R)}
    (h : Holds s opened closed) (hpoint : s.point = .expand current (ofNodes (e :: es))) :
    step c s () = some
      (((relax c (ofNodes closed) (ofNodes opened) current e.1).map fun openSet =>
        { s with openSet := openSet, point := .expand current (ofNodes es) }).getD
          { s with point := .crashed }) := by
  have hadvance : advance c s =
      (relax c (ofNodes closed) (ofNodes opened) current e.1).map fun openSet =>
        { s with openSet := openSet, point := .expand current (ofNodes es) } := by
    rw [advance, hpoint]
    simp only [pop_cons, Option.bind_eq_bind, Option.bind_some, h.closedSet, h.openSet]
    exact Option.map_eq_bind.symm
  simp only [step, hpoint, hadvance]

/-- **What a step does.** -/
theorem step_cases (h : Holds s opened closed)
    (hneighbors : ∀ current ns, s.point = .expand current ns → ∃ es, ns = ofNodes es)
    (hs : s' ∈ step c s ()) : StepCase c s opened closed s' := by
  cases hpoint : s.point with
  | head =>
    cases opened with
    | nil =>
      rw [step_head_nil h hpoint] at hs
      obtain rfl := Option.some.inj hs
      exact .failed hpoint rfl ⟨rfl, h.closedSet, h.goalPath⟩ rfl rfl
    | cons e rest =>
      by_cases hgoal : AtGoal c e.1
      · rw [step_head_goal h hpoint hgoal] at hs
        obtain rfl := Option.some.inj hs
        exact .solved e rest hpoint rfl hgoal ⟨rfl, rfl, proper_extractPath e.1 proper_newList⟩
          rfl rfl rfl
      · rw [step_head_cons h hpoint hgoal] at hs
        obtain rfl := Option.some.inj hs
        exact .expand e rest hpoint rfl hgoal ⟨rfl, rfl, h.goalPath⟩ rfl rfl
  | expand current ns =>
    obtain ⟨es, rfl⟩ := hneighbors current ns hpoint
    cases es with
    | nil =>
      rw [step_expand_nil hpoint] at hs
      obtain rfl := Option.some.inj hs
      exact .done current hpoint ⟨h.openSet, h.closedSet, h.goalPath⟩ rfl rfl
    | cons n es =>
      rw [step_expand_cons h hpoint, relax_eq] at hs
      obtain rfl := Option.some.inj hs
      split
      · rename_i hskip
        refine .skip current n es hpoint (hskip.imp_right ?_) ⟨rfl, h.closedSet, h.goalPath⟩ rfl rfl
        rintro ⟨m, hm, hnot⟩
        have hsame := List.find?_some hm
        exact ⟨m, List.mem_of_find?_eq_some hm, hsame, hnot⟩
      · rename_i henter
        rw [not_or] at henter
        have hclosed : ∀ m ∈ closed, nodeEqauls n.1 m.1 = false := fun m hm =>
          Bool.eq_false_iff.mpr fun hsame => henter.1 ⟨m, hm, hsame⟩
        have hbetter : ∀ m ∈ opened.find? (fun e => nodeEqauls n.1 e.1),
            tentGScore c current n.1 < m.1.gScore := fun m hm => by
          by_contra hnot
          exact henter.2 ⟨m, hm, hnot⟩
        split
        · rename_i honly
          obtain ⟨m, hopened, hsame⟩ := exists_eq_singleton_of_eraseP honly.1 honly.2
          rw [nodeEqauls_comm] at hsame
          refine .crashed current n es hpoint hclosed m hopened hsame (hbetter m ?_) rfl
          simp [hopened, hsame]
        · rename_i hleft
          exact .enter current n es hpoint hclosed hbetter (fun hne hnil => hleft ⟨hne, hnil⟩)
            ⟨rfl, h.closedSet, h.goalPath⟩ rfl rfl
  | solved | failed | crashed => simp [step, hpoint] at hs

end S3RES.AStar
