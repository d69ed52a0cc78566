import S3RES.Foundations.Heap
import S3RES.Mapping.Grid

/-!
# Lists of nodes by address

The linked lists of `mapping.c` again, with the nodes on a heap: the cells of a list hold
addresses of nodes, `back_link` is one, and `free` takes the node away. The operations that look
at nodes or free them fail where a node has been freed before. The cells themselves belong to one
list each, so a list is the list of its cells here too, and `NULL` has none.

`ofAddrs` is the list of the given addresses. For each operation one lemma says what it does to
such a list, when its nodes are there.
-/

namespace S3RES.NodeHeap

variable {R : Type}

/-- `struct node_t`. -/
structure Node (R : Type) where
  x : ℤ
  y : ℤ
  gScore : R
  backLink : Option ℕ

/-- One `struct l_list_t`, without the pointer to the next. -/
structure Cell (R : Type) where
  head : Option ℕ
  sortVal : R
  deriving DecidableEq

/-- A `struct l_list_t *`. -/
abbrev NodeList (R : Type) := List (Cell R)

/-- What can go wrong: a list operation follows `NULL`, a node is used or freed that has been
freed, the back links lead round in a circle. -/
inductive Fault
  | null
  | freed
  | circle
  deriving DecidableEq

/-- The node at an address. -/
def node (heap : Heap (Node R)) (a : ℕ) : Except Fault (Node R) :=
  match heap.object a with
  | some n => .ok n
  | none => .error .freed

/-- `free`. -/
def free (heap : Heap (Node R)) (a : ℕ) : Except Fault (Heap (Node R)) := do
  let _ ← node heap a
  return heap.free a

/-- `newList`. -/
def newList [Zero R] : NodeList R := [⟨none, 0⟩]

/-- The node that `newNode` puts at the next address. -/
def newNode (x y : ℤ) (gScore : R) : Node R := ⟨x, y, gScore, none⟩

/-- `nodeEqauls`, for nodes that are not `NULL`. -/
def nodeEqauls (heap : Heap (Node R)) (a b : ℕ) : Except Fault Bool := do
  let n ← node heap a
  let m ← node heap b
  return n.x = m.x && n.y = m.y

/-- `removeNode`. -/
def removeNode (heap : Heap (Node R)) :
    NodeList R → ℕ → Except Fault (Heap (Node R) × NodeList R)
  | [], _ => return (heap, [])
  | ⟨none, v⟩ :: tail, _ => return (heap, ⟨none, v⟩ :: tail)
  | ⟨some head, v⟩ :: tail, node => do
    let equal ← nodeEqauls heap head node
    if equal then
      let heap ← free heap head
      return (heap, tail)
    else
      let (heap, tail) ← removeNode heap tail node
      return (heap, ⟨some head, v⟩ :: tail)

/-- `addNode`. -/
def addNode [LT R] [DecidableLT R] : NodeList R → ℕ → R → Except Fault (NodeList R)
  | [], _, _ => .error .null
  | ⟨none, _⟩ :: tail, node, sortVal => return ⟨some node, sortVal⟩ :: tail
  | ⟨some head, v⟩ :: tail, node, sortVal =>
    if sortVal < v then return ⟨some node, sortVal⟩ :: ⟨some head, v⟩ :: tail
    else
      match tail with
      -- the tail is a new list, which gets the node
      | [] => return [⟨some head, v⟩, ⟨some node, sortVal⟩]
      | cell :: tail => return ⟨some head, v⟩ :: (← addNode (cell :: tail) node sortVal)

/-- `findNode`. -/
def findNode (heap : Heap (Node R)) : NodeList R → ℕ → Except Fault (Option ℕ)
  | [], _ => return none
  | ⟨none, _⟩ :: _, _ => return none
  | ⟨some head, _⟩ :: tail, node => do
    let equal ← nodeEqauls heap node head
    if equal then return some head else findNode heap tail node

/-- `push`. -/
def push [Zero R] (list : NodeList R) (node : ℕ) : NodeList R := ⟨some node, 0⟩ :: list

/-- `pop`: the node, and the list it leaves behind. -/
def pop [Zero R] : NodeList R → Except Fault (Option ℕ × NodeList R)
  | [] => .error .null
  | cell :: tail => return (cell.head, if tail.isEmpty then newList else tail)

/-- `eraseList`: the list that is left. -/
def eraseList [Zero R] (heap : Heap (Node R)) :
    NodeList R → Except Fault (Heap (Node R) × NodeList R)
  | [] => .error .null
  | ⟨none, _⟩ :: tail => return (heap, if tail.isEmpty then newList else tail)
  | ⟨some a, _⟩ :: [] => return (← free heap a, newList)
  | ⟨some a, _⟩ :: cell :: tail => do
    let heap ← free heap a
    eraseList heap (cell :: tail)

/-- `eraseAllButList`; its list is gone afterwards. -/
def eraseAllButList (heap : Heap (Node R)) (saveList : NodeList R) :
    NodeList R → Except Fault (Heap (Node R))
  | [] => .error .null
  | ⟨none, _⟩ :: _ => return heap
  | ⟨some cleanN, _⟩ :: tail => do
    let found ← findNode heap saveList cleanN
    let heap ← if found.isSome then pure heap else free heap cleanN
    match tail with
    -- what `pop` leaves behind the last node is an empty list
    | [] => return heap
    | cell :: tail => eraseAllButList heap saveList (cell :: tail)

/-- The nodes of a list. -/
def addrs (list : NodeList R) : List ℕ := list.filterMap (·.head)

/-! ### Lists of the given addresses -/

/-- A cell with a node. -/
def full (e : ℕ × R) : Cell R := ⟨some e.1, e.2⟩

/-- The list of these nodes, with the values it is sorted by. -/
def ofAddrs [Zero R] (es : List (ℕ × R)) : NodeList R :=
  if es.isEmpty then newList else es.map full

/-- The list that `push` makes of these nodes. -/
def pushed [Zero R] (as : List ℕ) : NodeList R := as.map (fun a => ⟨some a, 0⟩) ++ newList

/-- The cell of the map that a node is for. -/
def cellAt (heap : Heap (Node R)) (a : ℕ) : Option (ℤ × ℤ) :=
  (heap.object a).map fun n => (n.x, n.y)

/-- The nodes at these addresses are there. -/
def Live (heap : Heap (Node R)) (as : List ℕ) : Prop := ∀ a ∈ as, (heap.object a).isSome

variable {heap : Heap (Node R)} {es : List (ℕ × R)} {as path : List ℕ} {a b : ℕ} {n : Node R} {v : R}

@[simp] theorem ok_bind {α β : Type} (x : α) (f : α → Except Fault β) :
    (Except.ok x >>= f) = f x := rfl

theorem newList_eq_pushed [Zero R] : (newList : NodeList R) = pushed [] := rfl

theorem node_of_object (h : heap.object a = some n) : node heap a = .ok n := by
  rw [node, h]

theorem free_of_isSome (h : (heap.object a).isSome) : free heap a = .ok (heap.free a) := by
  obtain ⟨n, hn⟩ := Option.isSome_iff_exists.mp h
  rw [free, node_of_object hn]
  rfl

theorem nodeEqauls_of_isSome (ha : (heap.object a).isSome) (hb : (heap.object b).isSome) :
    nodeEqauls heap a b = .ok (cellAt heap a = cellAt heap b) := by
  obtain ⟨n, hn⟩ := Option.isSome_iff_exists.mp ha
  obtain ⟨m, hm⟩ := Option.isSome_iff_exists.mp hb
  have hcell : (n.x = m.x && n.y = m.y) = decide (cellAt heap a = cellAt heap b) := by
    rw [cellAt, cellAt, hn, hm]
    simp
  rw [nodeEqauls, node_of_object hn, node_of_object hm, ← hcell]
  rfl

theorem Live.cons_iff : Live heap (a :: as) ↔ (heap.object a).isSome ∧ Live heap as :=
  List.forall_mem_cons

theorem Live.free (h : Live heap as) (ha : a ∉ as) : Live (heap.free a) as := by
  intro b hb
  have hne : b ≠ a := by
    rintro rfl
    exact ha hb
  rw [Heap.object_free_of_ne heap hne]
  exact h b hb

theorem cellAt_free (ha : b ≠ a) : cellAt (heap.free a) b = cellAt heap b := by
  rw [cellAt, Heap.object_free_of_ne heap ha, cellAt]

theorem map_cellAt_free (ha : a ∉ as) : as.map (cellAt (heap.free a)) = as.map (cellAt heap) := by
  refine List.map_congr_left fun b hb => cellAt_free ?_
  rintro rfl
  exact ha hb

section

variable [Zero R]

theorem ofAddrs_cons (e : ℕ × R) (es : List (ℕ × R)) :
    ofAddrs (e :: es) = full e :: es.map full := rfl

theorem ofAddrs_ne_nil (es : List (ℕ × R)) : ofAddrs es ≠ [] := by
  cases es with
  | nil => exact List.cons_ne_nil _ _
  | cons e es => exact List.cons_ne_nil _ _

@[simp] theorem isEmpty_ofAddrs (es : List (ℕ × R)) : (ofAddrs es).isEmpty = false :=
  List.isEmpty_eq_false_iff.mpr (ofAddrs_ne_nil es)

@[simp] theorem addrs_ofAddrs (es : List (ℕ × R)) : addrs (ofAddrs es) = es.map (·.1) := by
  cases es with
  | nil => rfl
  | cons e es =>
    rw [ofAddrs_cons, addrs, ← List.map_cons, List.filterMap_map]
    exact congrFun List.filterMap_eq_map (e :: es)

theorem ofAddrs_injective : Function.Injective (ofAddrs : List (ℕ × R) → NodeList R) := by
  have hentries : ∀ es : List (ℕ × R),
      (ofAddrs es).filterMap (fun cell => cell.head.map fun a => (a, cell.sortVal)) = es := by
    intro es
    cases es with
    | nil => rfl
    | cons e es =>
      rw [ofAddrs_cons, ← List.map_cons, List.filterMap_map]
      exact List.filterMap_some
  exact Function.LeftInverse.injective hentries

@[simp] theorem addrs_pushed (as : List ℕ) : addrs (pushed as : NodeList R) = as := by
  rw [addrs, pushed, List.filterMap_append, List.filterMap_map]
  simp [newList]

@[simp] theorem pop_nil : pop (ofAddrs ([] : List (ℕ × R))) = .ok (none, ofAddrs []) := rfl

@[simp] theorem pop_cons (e : ℕ × R) (es : List (ℕ × R)) :
    pop (ofAddrs (e :: es)) = .ok (some e.1, ofAddrs es) := by
  cases es with
  | nil => rfl
  | cons e' es => rfl

theorem pushed_injective : Function.Injective (pushed : List ℕ → NodeList R) :=
  Function.LeftInverse.injective addrs_pushed

/-! ### Looking for a node -/

/-- The first of the nodes that is for the same cell. -/
def found (heap : Heap (Node R)) (es : List (ℕ × R)) (a : ℕ) : Option (ℕ × R) :=
  es.find? fun e => cellAt heap a = cellAt heap e.1

omit [Zero R] in
theorem findNode_append {rest : NodeList R} (hlive : Live heap (es.map (·.1)))
    (ha : (heap.object a).isSome) (hrest : findNode heap rest a = .ok none) :
    findNode heap (es.map full ++ rest) a = .ok ((found heap es a).map (·.1)) := by
  induction es with
  | nil => exact hrest
  | cons e es ih =>
    obtain ⟨he, hes⟩ := Live.cons_iff.mp hlive
    rw [List.map_cons, List.cons_append, full, findNode, nodeEqauls_of_isSome ha he, found,
      List.find?_cons]
    by_cases hsame : cellAt heap a = cellAt heap e.1
    · simp only [hsame, decide_true]
      rfl
    · simp only [hsame, decide_false]
      exact ih hes

theorem findNode_ofAddrs (hlive : Live heap (es.map (·.1))) (ha : (heap.object a).isSome) :
    findNode heap (ofAddrs es) a = .ok ((found heap es a).map (·.1)) := by
  cases es with
  | nil => rfl
  | cons e es =>
    have h : findNode heap ((e :: es).map full ++ []) a = _ := findNode_append hlive ha rfl
    rwa [List.append_nil] at h

omit [Zero R] in
theorem isSome_found : (found heap es a).isSome ↔ cellAt heap a ∈ es.map fun e => cellAt heap e.1 := by
  rw [found, List.find?_isSome]
  simp only [decide_eq_true_eq, List.mem_map]
  exact exists_congr fun e => and_congr_right fun _ => eq_comm

theorem pushed_eq (as : List ℕ) :
    (pushed as : NodeList R) = (as.map fun a => (a, 0)).map full ++ newList := by
  rw [pushed, List.map_map]
  rfl

theorem findNode_pushed (hlive : Live heap as) (ha : (heap.object a).isSome) :
    ∃ m, findNode heap (pushed as) a = .ok m ∧
      (m.isSome ↔ cellAt heap a ∈ as.map (cellAt heap)) := by
  have hfst : ∀ l : List ℕ, (l.map fun a => (a, (0 : R))).map (·.1) = l := by
    intro l
    rw [List.map_map]
    exact List.map_id l
  rw [pushed_eq]
  refine ⟨_, findNode_append (by rwa [hfst]) ha rfl, ?_⟩
  rw [Option.isSome_map, isSome_found, List.map_map]
  rfl

/-! ### Adding and removing -/

section

variable [LT R] [DecidableLT R]

/-- A node goes into a sorted list before the first of a greater value. -/
def insertAddr (es : List (ℕ × R)) (a : ℕ) (v : R) : List (ℕ × R) :=
  es.orderedInsert (fun e e' => e.2 < e'.2) (a, v)

omit [Zero R] in
theorem insertAddr_cons (e : ℕ × R) (es : List (ℕ × R)) (a : ℕ) (v : R) :
    insertAddr (e :: es) a v = if v < e.2 then (a, v) :: e :: es else e :: insertAddr es a v := rfl

omit [Zero R] in
theorem perm_insertAddr (es : List (ℕ × R)) (a : ℕ) (v : R) :
    (insertAddr es a v).Perm ((a, v) :: es) := List.perm_orderedInsert _ _ _

theorem addNode_ofAddrs (es : List (ℕ × R)) (a : ℕ) (v : R) :
    addNode (ofAddrs es) a v = .ok (ofAddrs (insertAddr es a v)) := by
  have hmap : ∀ e es, addNode ((e :: es).map full) a v =
      .ok ((insertAddr (e :: es) a v).map full) := by
    intro e es
    induction es generalizing e with
    | nil =>
      rw [List.map_cons, full, List.map_nil, addNode, insertAddr_cons]
      split_ifs <;> rfl
    | cons e' es ih =>
      rw [List.map_cons, List.map_cons, full, addNode, insertAddr_cons]
      split_ifs
      · rfl
      · rw [← List.map_cons, ih e']
        rfl
  cases es with
  | nil => rfl
  | cons e es =>
    rw [ofAddrs_cons, ← List.map_cons, hmap e es, insertAddr_cons]
    split_ifs <;> rfl

end

/-- What is left of the list when a node for this cell has been removed. -/
def without (heap : Heap (Node R)) (es : List (ℕ × R)) (a : ℕ) : List (ℕ × R) :=
  es.eraseP fun e => cellAt heap a = cellAt heap e.1

/-- A node that is removed is freed; if it was the only one, `NULL` is left. -/
theorem removeNode_ofAddrs (hne : es ≠ []) (hlive : Live heap (es.map (·.1)))
    (ha : (heap.object a).isSome) : removeNode heap (ofAddrs es) a =
      .ok ((found heap es a).elim heap fun e => heap.free e.1,
        (without heap es a).map full) := by
  have hmap : ∀ es : List (ℕ × R), Live heap (es.map (·.1)) → removeNode heap (es.map full) a =
      .ok ((found heap es a).elim heap fun e => heap.free e.1,
        (without heap es a).map full) := by
    intro es
    induction es with
    | nil => exact fun _ => rfl
    | cons e es ih =>
      intro hlive
      obtain ⟨he, hes⟩ := Live.cons_iff.mp hlive
      rw [List.map_cons, full, removeNode, nodeEqauls_of_isSome he ha, found, without,
        List.find?_cons, List.eraseP_cons]
      by_cases hsame : cellAt heap e.1 = cellAt heap a
      · rw [free_of_isSome he]
        simp only [hsame, decide_true]
        rfl
      · have hother : cellAt heap a ≠ cellAt heap e.1 := fun h => hsame h.symm
        simp only [hsame, hother, decide_false, ih hes, ok_bind]
        rfl
  cases es with
  | nil => exact absurd rfl hne
  | cons e es => exact hmap (e :: es) hlive

/-! ### Freeing whole lists -/

theorem eraseList_append {rest : NodeList R} (hlive : Live heap (es.map (·.1)))
    (hnodup : (es.map (·.1)).Nodup) (hrest : rest = newList ∨ rest = [] ∧ es ≠ []) :
    eraseList heap (es.map full ++ rest) = .ok (heap.freeAll (es.map (·.1)), newList) := by
  induction es generalizing heap with
  | nil =>
    obtain rfl := hrest.resolve_right fun h => h.2 rfl
    rfl
  | cons e es ih =>
    obtain ⟨he, hes⟩ := Live.cons_iff.mp hlive
    obtain ⟨hnot, hnodup⟩ := List.nodup_cons.mp hnodup
    rw [List.map_cons, List.cons_append, full, List.map_cons, Heap.freeAll_cons]
    cases hlist : es.map full ++ rest with
    | nil =>
      obtain ⟨hnil, -⟩ := List.append_eq_nil_iff.mp hlist
      obtain rfl := List.map_eq_nil_iff.mp hnil
      rw [eraseList, free_of_isSome he]
      rfl
    | cons cell tail =>
      have hrest' : rest = newList ∨ rest = [] ∧ es ≠ [] := by
        refine hrest.imp_right fun h => ⟨h.1, ?_⟩
        rintro rfl
        rw [h.1] at hlist
        cases hlist
      rw [eraseList, free_of_isSome he, ← hlist]
      exact ih (hes.free hnot) hnodup hrest'

theorem eraseList_ofAddrs (hlive : Live heap (es.map (·.1))) (hnodup : (es.map (·.1)).Nodup) :
    eraseList heap (ofAddrs es) = .ok (heap.freeAll (es.map (·.1)), newList) := by
  cases es with
  | nil => rfl
  | cons e es =>
    have h : eraseList heap ((e :: es).map full ++ []) = _ :=
      eraseList_append hlive hnodup (.inr ⟨rfl, List.cons_ne_nil _ _⟩)
    rwa [List.append_nil] at h

theorem eraseList_pushed (hlive : Live heap as) (hnodup : as.Nodup) :
    eraseList heap (pushed as) = .ok (heap.freeAll as, newList) := by
  have hfst : (as.map fun a => (a, (0 : R))).map (·.1) = as := by
    rw [List.map_map]
    exact List.map_id as
  have h : eraseList heap ((as.map fun a => (a, (0 : R))).map full ++ newList) = _ :=
    eraseList_append (by rwa [hfst]) (by rwa [hfst]) (.inl rfl)
  rwa [hfst, ← pushed_eq] at h

/-- The nodes that `eraseAllButList` frees: those that are for a cell without a node on the
path. -/
def strays (heap : Heap (Node R)) (path as : List ℕ) : List ℕ :=
  as.filter fun a => cellAt heap a ∉ path.map (cellAt heap)

theorem eraseAllButList_full (hpath : Live heap path) (hes : es ≠ [])
    (hlive : Live heap (es.map (·.1))) (hnodup : (es.map (·.1)).Nodup) :
    eraseAllButList heap (pushed path) (es.map full) =
      .ok (heap.freeAll (strays heap path (es.map (·.1)))) := by
  induction es generalizing heap with
  | nil => exact absurd rfl hes
  | cons e es ih =>
    obtain ⟨he, hlive⟩ := Live.cons_iff.mp hlive
    obtain ⟨hnot, hnodup⟩ := List.nodup_cons.mp hnodup
    obtain ⟨m, hfind, hm⟩ := findNode_pushed (a := e.1) hpath he
    -- with the heap that the first node leaves, the others are as in the induction
    have hrest : ∀ heap' : Heap (Node R), (es ≠ [] → eraseAllButList heap' (pushed path)
        (es.map full) = .ok (heap'.freeAll (strays heap path (es.map (·.1))))) →
        (match es.map full with
          | [] => (return heap' : Except Fault (Heap (Node R)))
          | cell :: tail => eraseAllButList heap' (pushed path) (cell :: tail)) =
            .ok (heap'.freeAll (strays heap path (es.map (·.1)))) := by
      intro heap' h
      cases es with
      | nil => rfl
      | cons e' es => exact h (List.cons_ne_nil _ _)
    rw [List.map_cons, full, eraseAllButList, hfind, ok_bind, List.map_cons]
    by_cases hmem : cellAt heap e.1 ∈ path.map (cellAt heap)
    · rw [if_pos (hm.mpr hmem), strays, List.filter_cons_of_neg (by simpa using hmem)]
      exact hrest heap fun hne => ih hpath hne hlive hnodup
    · have hoff : e.1 ∉ path := fun h => hmem (List.mem_map_of_mem h)
      have hsame : strays (heap.free e.1) path (es.map (·.1)) = strays heap path (es.map (·.1)) := by
        refine List.filter_congr fun b hb => ?_
        rw [map_cellAt_free hoff, cellAt_free (by rintro rfl; exact hnot hb)]
      rw [if_neg fun h => hmem (hm.mp h), free_of_isSome he, strays,
        List.filter_cons_of_pos (by simpa using hmem), Heap.freeAll_cons, ok_bind]
      refine hrest _ fun hne => ?_
      rw [← hsame]
      exact ih (hpath.free hoff) hne (hlive.free hnot) hnodup

theorem eraseAllButList_ofAddrs (hpath : Live heap path) (hlive : Live heap (es.map (·.1)))
    (hnodup : (es.map (·.1)).Nodup) : eraseAllButList heap (pushed path) (ofAddrs es) =
      .ok (heap.freeAll (strays heap path (es.map (·.1)))) := by
  cases es with
  | nil => rfl
  | cons e es => exact eraseAllButList_full hpath (List.cons_ne_nil _ _) hlive hnodup

end

end S3RES.NodeHeap
