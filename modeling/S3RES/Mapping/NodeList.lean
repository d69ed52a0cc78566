import S3RES.Mapping.Grid

/-!
# Lists of nodes

The linked lists of `mapping.c`. A list is the list of its cells, `NULL` has none, and a cell
without a node stands for the empty list (`newList`). `addNode` and `pop` follow the pointer
they are given: on `NULL` they are `none`.

`ofNodes` is the list of the given nodes, and for each operation one lemma says what it does to
such a list. `removeNode` leaves this form: it turns a list of one node into `NULL`.

`R` stands for `double`.
-/

namespace S3RES.Mapping

variable {R : Type*}

/-- `struct node_t`, with the node that `back_link` names. -/
structure Node (R : Type*) where
  x : ℤ
  y : ℤ
  gScore : R
  backLink : Option (Node R)

/-- One `struct l_list_t`, without the pointer to the next. -/
structure Cell (R : Type*) where
  head : Option (Node R)
  sortVal : R

/-- A `struct l_list_t *`. -/
abbrev NodeList (R : Type*) := List (Cell R)

/-- `newList`. -/
def newList [Zero R] : NodeList R := [⟨none, 0⟩]

/-- `newNode`. -/
def newNode (x y : ℤ) (gScore : R) : Node R := ⟨x, y, gScore, none⟩

/-- `nodeEqauls`, for nodes that are not `NULL`. -/
def nodeEqauls (a b : Node R) : Bool := a.x = b.x && a.y = b.y

/-- `removeNode`. -/
def removeNode : NodeList R → Node R → NodeList R
  | [], _ => []
  | ⟨none, v⟩ :: tail, _ => ⟨none, v⟩ :: tail
  | ⟨some head, v⟩ :: tail, node =>
    if nodeEqauls head node then tail else ⟨some head, v⟩ :: removeNode tail node

/-- `addNode`. -/
def addNode [LT R] [DecidableLT R] : NodeList R → Node R → R → Option (NodeList R)
  | [], _, _ => none
  | ⟨none, _⟩ :: tail, node, sortVal => some (⟨some node, sortVal⟩ :: tail)
  | ⟨some head, v⟩ :: tail, node, sortVal =>
    if sortVal < v then some (⟨some node, sortVal⟩ :: ⟨some head, v⟩ :: tail)
    else
      match tail with
      -- the tail is a new list, which gets the node
      | [] => some [⟨some head, v⟩, ⟨some node, sortVal⟩]
      | cell :: tail => (addNode (cell :: tail) node sortVal).map (⟨some head, v⟩ :: ·)

/-- `findNode`. -/
def findNode : NodeList R → Node R → Option (Node R)
  | [], _ => none
  | ⟨none, _⟩ :: _, _ => none
  | ⟨some head, _⟩ :: tail, node => if nodeEqauls node head then some head else findNode tail node

/-- `push`. -/
def push [Zero R] (list : NodeList R) (node : Node R) : NodeList R := ⟨some node, 0⟩ :: list

/-- `pop`: the node, and the list it leaves behind. -/
def pop [Zero R] : NodeList R → Option (Option (Node R) × NodeList R)
  | [] => none
  | cell :: tail => some (cell.head, if tail.isEmpty then newList else tail)

/-- `eraseList`: the list that is left. -/
def eraseList [Zero R] : NodeList R → Option (NodeList R)
  | [] => none
  | ⟨none, _⟩ :: tail => some (if tail.isEmpty then newList else tail)
  | ⟨some _, _⟩ :: [] => some newList
  | ⟨some _, _⟩ :: cell :: tail => eraseList (cell :: tail)

/-- The nodes of a list. -/
def nodes (list : NodeList R) : List (Node R) := list.filterMap (·.head)

/-! ### Lists of the given nodes -/

/-- A cell with a node. -/
def full (e : Node R × R) : Cell R := ⟨some e.1, e.2⟩

/-- The list of these nodes, with the values it is sorted by. -/
def ofNodes [Zero R] (es : List (Node R × R)) : NodeList R :=
  if es.isEmpty then newList else es.map full

variable {es : List (Node R × R)} {e : Node R × R} {n m : Node R} {v : R}

theorem nodeEqauls_iff : nodeEqauls n m = true ↔ n.x = m.x ∧ n.y = m.y := by
  simp [nodeEqauls]

theorem nodeEqauls_comm (n m : Node R) : nodeEqauls n m = nodeEqauls m n := by
  rw [Bool.eq_iff_iff, nodeEqauls_iff, nodeEqauls_iff, eq_comm, eq_comm (a := n.y)]

section Insert

variable [LT R] [DecidableLT R]

/-- The new node goes before the other. -/
def Before (a b : Node R × R) : Prop := a.2 < b.2

instance : DecidableRel (Before (R := R)) := fun a b => inferInstanceAs (Decidable (a.2 < b.2))

/-- A node goes into a sorted list before the first of a greater value. -/
def insertNode (es : List (Node R × R)) (n : Node R) (v : R) : List (Node R × R) :=
  es.orderedInsert Before (n, v)

theorem insertNode_cons (e : Node R × R) (es : List (Node R × R)) (n : Node R) (v : R) :
    insertNode (e :: es) n v = if v < e.2 then (n, v) :: e :: es else e :: insertNode es n v := rfl

theorem mem_insertNode : e ∈ insertNode es n v ↔ e = (n, v) ∨ e ∈ es := List.mem_orderedInsert _

theorem length_insertNode (es : List (Node R × R)) (n : Node R) (v : R) :
    (insertNode es n v).length = es.length + 1 := List.orderedInsert_length _ _ _

end Insert

section

variable [Zero R]

theorem ofNodes_cons (e : Node R × R) (es : List (Node R × R)) :
    ofNodes (e :: es) = full e :: es.map full := rfl

theorem ofNodes_ne_nil (es : List (Node R × R)) : ofNodes es ≠ [] := by
  cases es with
  | nil => exact List.cons_ne_nil _ _
  | cons e es => exact List.cons_ne_nil _ _

theorem ofNodes_injective : Function.Injective (ofNodes : List (Node R × R) → NodeList R) := by
  have hfull : Function.Injective (full : Node R × R → Cell R) := by
    rintro ⟨n, v⟩ ⟨m, w⟩ h
    obtain ⟨⟨rfl⟩, rfl⟩ := Cell.mk.inj h
    rfl
  intro es es' h
  match es, es', h with
  | [], [], _ => rfl
  | [], e' :: es', h => cases (List.cons.inj h).1
  | e :: es, [], h => cases (List.cons.inj h).1
  | e :: es, e' :: es', h => exact hfull.list_map h

@[simp] theorem isEmpty_ofNodes (es : List (Node R × R)) : (ofNodes es).isEmpty = false :=
  List.isEmpty_eq_false_iff.mpr (ofNodes_ne_nil es)

@[simp] theorem nodes_ofNodes (es : List (Node R × R)) : nodes (ofNodes es) = es.map (·.1) := by
  cases es with
  | nil => rfl
  | cons e es =>
    rw [ofNodes_cons, nodes, ← List.map_cons, List.filterMap_map]
    exact congrFun List.filterMap_eq_map (e :: es)

@[simp] theorem pop_nil : pop (ofNodes ([] : List (Node R × R))) = some (none, ofNodes []) := rfl

@[simp] theorem pop_cons (e : Node R × R) (es : List (Node R × R)) :
    pop (ofNodes (e :: es)) = some (some e.1, ofNodes es) := by
  cases es with
  | nil => rfl
  | cons e' es => rfl

@[simp] theorem eraseList_ofNodes (es : List (Node R × R)) :
    eraseList (ofNodes es) = some newList := by
  cases es with
  | nil => rfl
  | cons e es =>
    induction es generalizing e with
    | nil => rfl
    | cons e' es ih => exact ih e'

theorem findNode_ofNodes (es : List (Node R × R)) (n : Node R) :
    findNode (ofNodes es) n = (es.find? fun e => nodeEqauls n e.1).map (·.1) := by
  have hmap : ∀ es : List (Node R × R), findNode (es.map full) n =
      (es.find? fun e => nodeEqauls n e.1).map (·.1) := by
    intro es
    induction es with
    | nil => rfl
    | cons e es ih =>
      rw [List.map_cons, full, findNode, ih, List.find?_cons]
      cases nodeEqauls n e.1 <;> rfl
  cases es with
  | nil => rfl
  | cons e es => exact hmap (e :: es)

theorem isSome_findNode_ofNodes (es : List (Node R × R)) (n : Node R) :
    (findNode (ofNodes es) n).isSome = true ↔ ∃ m ∈ es, nodeEqauls n m.1 = true := by
  rw [findNode_ofNodes, Option.isSome_map, List.find?_isSome]

/-- A node that is removed: if it was the only one, `NULL` is left. -/
theorem removeNode_ofNodes (es : List (Node R × R)) (hne : es ≠ []) (n : Node R) :
    removeNode (ofNodes es) n = (es.eraseP fun e => nodeEqauls e.1 n).map full := by
  have hmap : ∀ es : List (Node R × R), removeNode (es.map full) n =
      (es.eraseP fun e => nodeEqauls e.1 n).map full := by
    intro es
    induction es with
    | nil => rfl
    | cons e es ih =>
      rw [List.map_cons, full, removeNode, ih, List.eraseP_cons]
      cases nodeEqauls e.1 n <;> rfl
  cases es with
  | nil => exact absurd rfl hne
  | cons e es => exact hmap (e :: es)

variable [LT R] [DecidableLT R]

theorem addNode_ofNodes (es : List (Node R × R)) (n : Node R) (v : R) :
    addNode (ofNodes es) n v = some (ofNodes (insertNode es n v)) := by
  have hmap : ∀ e es, addNode ((e :: es).map full) n v =
      some ((insertNode (e :: es) n v).map full) := by
    intro e es
    induction es generalizing e with
    | nil =>
      rw [List.map_cons, full, List.map_nil, addNode, insertNode_cons]
      split_ifs <;> rfl
    | cons e' es ih =>
      rw [List.map_cons, List.map_cons, full, addNode, insertNode_cons]
      split_ifs
      · rfl
      · simp only [← List.map_cons, ih e', Option.map_some]
        rfl
  cases es with
  | nil => rfl
  | cons e es =>
    rw [ofNodes_cons, ← List.map_cons, hmap e es, insertNode_cons]
    split_ifs <;> rfl

/-- A node that is removed and added again: if it was the only one, there is no list to add it
to. -/
theorem addNode_removeNode (es : List (Node R × R)) (n : Node R) (v : R) :
    addNode (removeNode (ofNodes es) n) n v =
      if es ≠ [] ∧ (es.eraseP fun e => nodeEqauls e.1 n) = [] then none
      else some (ofNodes (insertNode (es.eraseP fun e => nodeEqauls e.1 n) n v)) := by
  rcases eq_or_ne es [] with rfl | hne
  · rfl
  · rw [removeNode_ofNodes es hne]
    cases h : es.eraseP fun e => nodeEqauls e.1 n with
    | nil => rw [if_pos ⟨hne, rfl⟩, List.map_nil, addNode]
    | cons e es => rw [if_neg (by simp), List.map_cons, ← ofNodes_cons, addNode_ofNodes]

end

/-! ### Lists with an empty cell at the end -/

/-- A list, not `NULL`, in which only the last cell may be without a node. -/
def Proper (list : NodeList R) : Prop := list ≠ [] ∧ ∀ cell ∈ list.dropLast, cell.head ≠ none

variable [Zero R] {list rest : NodeList R} {head : Option (Node R)}

theorem proper_newList : Proper (newList : NodeList R) := by
  refine ⟨List.cons_ne_nil _ _, fun cell hcell => ?_⟩
  cases hcell

theorem Proper.push (h : Proper list) (n : Node R) : Proper (push list n) := by
  refine ⟨List.cons_ne_nil _ _, fun cell hcell => ?_⟩
  rw [Mapping.push, List.dropLast_cons_of_ne_nil h.1] at hcell
  rcases List.mem_cons.mp hcell with rfl | hcell
  · exact Option.some_ne_none n
  · exact h.2 cell hcell

theorem Proper.pop (h : Proper list) (hpop : pop list = some (head, rest)) : Proper rest := by
  cases list with
  | nil => exact absurd rfl h.1
  | cons cell tail =>
    obtain ⟨-, rfl⟩ := Prod.mk.inj (Option.some.inj hpop)
    cases tail with
    | nil => exact proper_newList
    | cons cell' tail =>
      refine ⟨List.cons_ne_nil _ _, fun c hc => h.2 c ?_⟩
      rw [List.dropLast_cons_of_ne_nil (List.cons_ne_nil _ _)]
      exact List.mem_cons_of_mem _ hc

theorem Proper.eraseList (h : Proper list) : eraseList list = some newList := by
  induction list with
  | nil => exact absurd rfl h.1
  | cons cell tail ih =>
    obtain ⟨head, v⟩ := cell
    cases tail with
    | nil => cases head <;> rfl
    | cons cell' tail =>
      cases head with
      | none => exact absurd rfl (h.2 ⟨none, v⟩ (by simp))
      | some n =>
        refine ih ⟨List.cons_ne_nil _ _, fun c hc => h.2 c ?_⟩
        rw [List.dropLast_cons_of_ne_nil (List.cons_ne_nil _ _)]
        exact List.mem_cons_of_mem _ hc

end S3RES.Mapping
