import S3RES.AStar.Search
import S3RES.Mapping.NodeHeap

/-!
# The search of AStar on a heap

`command` of `a_star.c` as in `S3RES.AStar.Search`, step for step, with its nodes on a heap:
neighbours are allocated and freed, `back_link` is an address, and `eraseList` and
`eraseAllButList` free nodes. A step that uses a node that was freed, or frees it again, is a
crash here, and so are back links that lead round in a circle.

`sendWaypoints` is the other function that takes nodes out of `goal_path` and frees them.
-/

namespace S3RES.NodeHeap

open AStar StepSystem

variable {R : Type} [Zero R]

/-- Where `command` is: at the head of its loop, at the neighbours of `current`, or at its end. -/
inductive Point (R : Type)
  | head
  | expand (current : ℕ) (neighbors : NodeList R)
  | solved
  | failed
  | crashed (fault : Fault)
  deriving DecidableEq

/-- The nodes, the lists of `command`, and its `goal_node`. -/
structure Search (R : Type) where
  heap : Heap (Node R)
  closedSet : NodeList R
  openSet : NodeList R
  goalPath : NodeList R
  goalNode : ℕ
  point : Point R

/-- The loop that extracts the path along the back links. It cannot take more steps than there
were nodes, unless it comes back to one. -/
def extractPath (heap : Heap (Node R)) : ℕ → NodeList R → Option ℕ → Except Fault (NodeList R)
  | _, goalPath, none => return goalPath
  | 0, _, some _ => .error .circle
  | k + 1, goalPath, some current => do
    let n ← node heap current
    extractPath heap k (push goalPath current) n.backLink

variable [LT R] [DecidableLT R]

/-- The body of the loops of `genNeighbors`. -/
def addNeighbor (obstacleMap : ℤ → ℤ → Bool) (n : Node R) (acc : Heap (Node R) × NodeList R)
    (o : ℤ × ℤ) : Except Fault (Heap (Node R) × NodeList R) :=
  if (visit obstacleMap n.x n.y o.1 o.2).1 then do
    let list ← addNode acc.2 acc.1.next 0
    return (acc.1.alloc (newNode (n.x + o.1) (n.y + o.2) 0), list)
  else return acc

/-- `genNeighbors`. -/
def genNeighbors (obstacleMap : ℤ → ℤ → Bool) (heap : Heap (Node R)) (a : ℕ) :
    Except Fault (Heap (Node R) × NodeList R) := do
  let n ← node heap a
  offsets.foldlM (addNeighbor obstacleMap n) (heap, newList)

variable [Add R]

/-- The way to a neighbour is shorter than that of the open node, if there is one. -/
def shorter (heap : Heap (Node R)) (tentGScore : R) : Option ℕ → Except Fault Bool
  | none => return true
  | some a => do
    let n ← node heap a
    return tentGScore < n.gScore

/-- The body of the loop over the neighbours: the nodes and the open set it leaves behind. -/
def relax (c : Config R) (heap : Heap (Node R)) (closedSet openSet : NodeList R)
    (current currNeigh : ℕ) : Except Fault (Heap (Node R) × NodeList R) := do
  let inClosed ← findNode heap closedSet currNeigh
  if inClosed.isSome then
    let heap ← free heap currNeigh
    return (heap, openSet)
  else
    let n ← node heap currNeigh
    let m ← node heap current
    let tentGScore := m.gScore + c.estDistance n.x n.y m.x m.y
    let neighFromOpen ← findNode heap openSet currNeigh
    let better ← shorter heap tentGScore neighFromOpen
    if better then
      let heap := heap.set currNeigh { n with backLink := some current, gScore := tentGScore }
      let fScore := tentGScore + c.estDistanceG n.x n.y
      let (heap, openSet) ← removeNode heap openSet currNeigh
      let openSet ← addNode openSet currNeigh fScore
      return (heap, openSet)
    else
      let heap ← free heap currNeigh
      return (heap, openSet)

/-- The solution branch. -/
def solve (s : Search R) (openSet : NodeList R) (current : ℕ) : Except Fault (Search R) := do
  let heap ← free s.heap s.goalNode
  let (heap, goalPath) ← eraseList heap s.goalPath
  let goalPath ← extractPath heap heap.next goalPath (some current)
  let (heap, _) ← eraseList heap openSet
  let heap ← eraseAllButList heap goalPath s.closedSet
  -- the two sets are freed with their nodes
  return { s with
    heap := heap, closedSet := [], openSet := [], goalPath := goalPath, point := .solved }

/-- One step of the loops. -/
def advance (c : Config R) (s : Search R) : Except Fault (Search R) :=
  match s.point with
  | .head =>
    if s.openSet.isEmpty then return { s with point := .failed }
    else do
      let (current, openSet) ← pop s.openSet
      match current with
      | none => return { s with openSet := openSet, point := .failed }
      | some current =>
        let atGoal ← nodeEqauls s.heap current s.goalNode
        if atGoal then solve s openSet current
        else
          let n ← node s.heap current
          let closedSet ← addNode s.closedSet current (c.estDistanceG n.x n.y)
          let (heap, neighbors) ← genNeighbors c.obstacleMap s.heap current
          return { s with
            heap := heap
            closedSet := closedSet
            openSet := openSet
            point := .expand current neighbors }
  | .expand current neighbors => do
    let (currNeigh, neighbors) ← pop neighbors
    match currNeigh with
    | none => return { s with point := .head }
    | some currNeigh =>
      let (heap, openSet) ← relax c s.heap s.closedSet s.openSet current currNeigh
      return { s with heap := heap, openSet := openSet, point := .expand current neighbors }
  | _ => return s

/-- The system: there is one action, the next step, until `command` has ended. -/
def step (c : Config R) (s : Search R) : Unit → Option (Search R)
  | () =>
    match s.point with
    | .head | .expand _ _ =>
      match advance c s with
      | .ok s' => some s'
      | .error fault => some { s with point := .crashed fault }
    | _ => none

/-- The start of `command`. -/
def start (c : Config R) (heap : Heap (Node R)) (goalPath : NodeList R) : Search R where
  heap := (heap.alloc (newNode c.pose.x c.pose.y 0)).alloc (newNode c.goal.x c.goal.y 0)
  closedSet := newList
  openSet := (addNode newList heap.next (c.estDistanceG c.pose.x c.pose.y)).toOption.getD []
  goalPath := goalPath
  goalNode := heap.next + 1
  point := .head

/-! ### Between two calls of `command` -/

/-- The nodes, and the global variables that name some of them. -/
structure Memory (R : Type) where
  heap : Heap (Node R)
  goalPath : NodeList R
  currentGoal : Option ℕ
  nCurrentGoal : Option ℕ

/-- `free`, of a pointer that may be `NULL`. -/
def freeOption (heap : Heap (Node R)) : Option ℕ → Except Fault (Heap (Node R))
  | none => return heap
  | some a => free heap a

/-- What `sendWaypoints` does to the nodes. -/
def sendWaypoints (m : Memory R) (forceSend : Bool) : Except Fault (Memory R) :=
  if forceSend then do
    let heap ← freeOption m.heap m.currentGoal
    let heap ← freeOption heap m.nCurrentGoal
    let (currentGoal, goalPath) ← pop m.goalPath
    match currentGoal with
    | none => return ⟨heap, goalPath, none, none⟩
    | some _ =>
      let (nCurrentGoal, goalPath) ← pop goalPath
      return ⟨heap, goalPath, currentGoal, nCurrentGoal⟩
  else return m

/-- The memory of AStar between two calls: as `main` starts it, as `sendWaypoints` leaves it, and
as a call leaves it that has ended. -/
inductive Between : Memory R → Prop
  | start : Between ⟨Heap.empty, newList, none, none⟩
  | sendWaypoints {m m' : Memory R} (forceSend : Bool) (h : Between m)
      (hm : NodeHeap.sendWaypoints m forceSend = .ok m') : Between m'
  | command {m : Memory R} {t : Search R} (c : Config R) (h : Between m)
      (ht : Reaches (step c) (fun _ _ => True) (start c m.heap m.goalPath) t)
      (hend : t.point = .solved ∨ t.point = .failed) :
      Between ⟨t.heap, t.goalPath, m.currentGoal, m.nCurrentGoal⟩

end S3RES.NodeHeap
