import S3RES.Foundations.StepSystem
import S3RES.Mapping.NodeList

/-!
# The search of AStar

`command` of `a_star.c` as a step system: at the head of its loop it takes the first node from
`open_set` and either ends or goes on to the neighbours of the node, one step for each. Where a
list operation is given `NULL` the search has crashed. The obstacle map is any function on cells,
and `R` stands for `double`.

Nodes are values: a node that others link to is in `closed_set` and is not written any more, and
the nodes that are freed are those no other node links to.
-/

namespace S3RES.AStar

open Mapping StepSystem

variable {R : Type*} [Zero R] [Add R] [LT R] [DecidableLT R]

/-- The global variables that `command` reads, and `estDistance`. -/
structure Config (R : Type*) where
  obstacleMap : ℤ → ℤ → Bool
  pose : PointI
  goal : PointI
  estDistance : ℤ → ℤ → ℤ → ℤ → R

/-- `estDistanceG`. -/
def Config.estDistanceG (c : Config R) (x y : ℤ) : R := c.estDistance x y c.goal.x c.goal.y

/-! ### Neighbours -/

/-- The loops over `i` and `j`. -/
def offsets : List (ℤ × ℤ) :=
  [(-1, -1), (-1, 0), (-1, 1), (0, -1), (0, 0), (0, 1), (1, -1), (1, 0), (1, 1)]

/-- What `genNeighbors` does for `i` and `j`: whether the neighbour goes into the list, and which
elements of `obstacle_map` are read. -/
def visit (obstacleMap : ℤ → ℤ → Bool) (x y i j : ℤ) : Bool × List (ℤ × ℤ) :=
  let nX := x + i
  let nY := y + j
  if j = 0 ∧ i = 0 then (false, [])
  else if |i| + |j| = 2 then
    if obstacleMap nX nY then (false, [(nX, nY)])
    -- no jumping of gaps: one of the two adjacent cells has to be free
    else if obstacleMap nX y then (!obstacleMap x nY, [(nX, nY), (nX, y), (x, nY)])
    else (true, [(nX, nY), (nX, y)])
  else (!obstacleMap nX nY, [(nX, nY)])

/-- The body of the loops. -/
def addNeighbor (obstacleMap : ℤ → ℤ → Bool) (node : Node R) (list : NodeList R) (o : ℤ × ℤ) :
    Option (NodeList R) :=
  if (visit obstacleMap node.x node.y o.1 o.2).1 then
    addNode list (newNode (node.x + o.1) (node.y + o.2) 0) 0
  else some list

/-- `genNeighbors`. -/
def genNeighbors (obstacleMap : ℤ → ℤ → Bool) (node : Node R) : Option (NodeList R) :=
  offsets.foldlM (addNeighbor obstacleMap node) newList

/-- The elements of `obstacle_map` that `genNeighbors` reads. -/
def neighborReads (obstacleMap : ℤ → ℤ → Bool) (node : Node R) : List (ℤ × ℤ) :=
  offsets.flatMap fun o => (visit obstacleMap node.x node.y o.1 o.2).2

/-! ### The loop of `command` -/

/-- Where `command` is: at the head of its loop, at the neighbours of `current`, or at its end. -/
inductive Point (R : Type*)
  | head
  | expand (current : Node R) (neighbors : NodeList R)
  | solved
  | failed
  | crashed

/-- The lists of `command`, and the nodes it has expanded, the latest first. -/
structure Search (R : Type*) where
  closedSet : NodeList R
  openSet : NodeList R
  goalPath : NodeList R
  point : Point R
  expanded : List (Node R)

/-- The loop that extracts the path along the back links. -/
def extractPath (goalPath : NodeList R) : Node R → NodeList R
  | ⟨x, y, gScore, none⟩ => push goalPath ⟨x, y, gScore, none⟩
  | ⟨x, y, gScore, some back⟩ => extractPath (push goalPath ⟨x, y, gScore, some back⟩) back

/-- The body of the loop over the neighbours: the open set it leaves behind. -/
def relax (c : Config R) (closedSet openSet : NodeList R) (current currNeigh : Node R) :
    Option (NodeList R) :=
  if (findNode closedSet currNeigh).isSome then some openSet
  else
    let tentGScore :=
      current.gScore + c.estDistance currNeigh.x currNeigh.y current.x current.y
    let neighFromOpen := findNode openSet currNeigh
    if neighFromOpen.all fun n => tentGScore < n.gScore then
      let currNeigh := { currNeigh with backLink := some current, gScore := tentGScore }
      let fScore := tentGScore + c.estDistanceG currNeigh.x currNeigh.y
      addNode (removeNode openSet currNeigh) currNeigh fScore
    else some openSet

/-- One step of the loops; `none` where a list operation is given `NULL`. `eraseAllButList` pops
`closed_set` until it is empty, as `eraseList` does. -/
def advance (c : Config R) (s : Search R) : Option (Search R) :=
  match s.point with
  | .head =>
    if s.openSet.isEmpty then some { s with point := .failed }
    else do
      let (current, openSet) ← pop s.openSet
      match current with
      | none => some { s with openSet := openSet, point := .failed }
      | some current =>
        if nodeEqauls current (newNode c.goal.x c.goal.y 0) then
          let goalPath ← eraseList s.goalPath
          let openSet ← eraseList openSet
          let closedSet ← eraseList s.closedSet
          some { s with
            goalPath := extractPath goalPath current
            openSet := openSet
            closedSet := closedSet
            point := .solved }
        else
          let closedSet ← addNode s.closedSet current (c.estDistanceG current.x current.y)
          let neighbors ← genNeighbors c.obstacleMap current
          some { s with
            closedSet := closedSet
            openSet := openSet
            point := .expand current neighbors
            expanded := current :: s.expanded }
  | .expand current neighbors => do
    let (currNeigh, neighbors) ← pop neighbors
    match currNeigh with
    | none => some { s with point := .head }
    | some currNeigh =>
      let openSet ← relax c s.closedSet s.openSet current currNeigh
      some { s with openSet := openSet, point := .expand current neighbors }
  | _ => some s

/-- The system: there is one action, the next step, until `command` has ended. -/
def step (c : Config R) (s : Search R) : Unit → Option (Search R)
  | () =>
    match s.point with
    | .head | .expand _ _ => some ((advance c s).getD { s with point := .crashed })
    | _ => none

/-- The start of `command`. -/
def start (c : Config R) (goalPath : NodeList R) : Search R where
  closedSet := newList
  openSet := (addNode newList (newNode c.pose.x c.pose.y 0)
    (c.estDistanceG c.pose.x c.pose.y)).getD []
  goalPath := goalPath
  point := .head
  expanded := []

/-- `goal_path` between two calls of `command`: as `main` starts it, as `sendWaypoints` pops from
it, and as a call leaves it that has ended. -/
inductive GoalPath : NodeList R → Prop
  | newList : GoalPath newList
  | pop {list rest : NodeList R} {head : Option (Node R)} (h : GoalPath list)
      (hpop : Mapping.pop list = some (head, rest)) : GoalPath rest
  | command {list : NodeList R} {t : Search R} (c : Config R) (h : GoalPath list)
      (ht : Reaches (step c) (fun _ _ => True) (start c list) t)
      (hend : t.point = .solved ∨ t.point = .failed) : GoalPath t.goalPath

/-! ### Distances -/

/-- `estDistance`. -/
noncomputable def estDistance (x₁ y₁ x₂ y₂ : ℤ) : ℝ :=
  √(((x₁ - x₂) * (x₁ - x₂) + (y₁ - y₂) * (y₁ - y₂) : ℤ) : ℝ)

/-- The search on exact reals. -/
noncomputable def config (obstacleMap : ℤ → ℤ → Bool) (pose goal : PointI) : Config ℝ :=
  ⟨obstacleMap, pose, goal, estDistance⟩

end S3RES.AStar
