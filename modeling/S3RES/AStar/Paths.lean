import S3RES.AStar.Bounds
import S3RES.Foundations.BestFirst

/-!
# Permitted paths

What `command` is to find: a path of cells from the pose to the goal, each step of it permitted
(`IsPath`), with a length (`pathLength`). The steps are those that `genNeighbors` lists
(`mem_neighborEntries_iff`). Distances are those of the plane, so the distance to the goal is a
consistent estimate (`consistent_problem`). The back links of a node describe a path
(`Traced.isPath`), which is what `extractPath` puts into `goal_path`.
-/

namespace S3RES.AStar

open Mapping

/-! ### Distances -/

/-- The distance of two cells under `estDistance`. -/
noncomputable def distance (a b : ℤ × ℤ) : ℝ := estDistance a.1 a.2 b.1 b.2

/-- A cell as a point of the plane. -/
def toPlane (a : ℤ × ℤ) : ℂ := ⟨a.1, a.2⟩

theorem distance_eq_dist (a b : ℤ × ℤ) : distance a b = dist (toPlane a) (toPlane b) := by
  rw [distance, estDistance, Complex.dist_eq_re_im]
  congr 1
  simp only [toPlane]
  push_cast
  ring

theorem distance_comm (a b : ℤ × ℤ) : distance a b = distance b a := by
  rw [distance_eq_dist, distance_eq_dist, dist_comm]

theorem distance_triangle (a b c : ℤ × ℤ) : distance a c ≤ distance a b + distance b c := by
  simpa only [distance_eq_dist] using dist_triangle (toPlane a) (toPlane b) (toPlane c)

/-! ### Steps and paths -/

/-- A step to one of the eight neighbours: it is free, and of a diagonal one of the two adjacent
cells is free. -/
def Permitted (obstacleMap : ℤ → ℤ → Bool) (a b : ℤ × ℤ) : Prop :=
  a ≠ b ∧ Near a b ∧ obstacleMap b.1 b.2 = false ∧
    (a.1 ≠ b.1 → a.2 ≠ b.2 → obstacleMap b.1 a.2 = false ∨ obstacleMap a.1 b.2 = false)

/-- A sequence of cells from one to another, each step permitted. -/
structure IsPath (obstacleMap : ℤ → ℤ → Bool) (a b : ℤ × ℤ) (path : List (ℤ × ℤ)) : Prop where
  head : path.head? = some a
  last : path.getLast? = some b
  steps : path.IsChain (Permitted obstacleMap)

/-- The length of a path. -/
noncomputable def pathLength : List (ℤ × ℤ) → ℝ
  | a :: b :: path => distance a b + pathLength (b :: path)
  | _ => 0

/-- The steps that `visit` permits. -/
theorem visit_iff (obstacleMap : ℤ → ℤ → Bool) (x y : ℤ) {o : ℤ × ℤ} (ho : o ∈ offsets) :
    (visit obstacleMap x y o.1 o.2).1 = true ↔ Permitted obstacleMap (x, y) (x + o.1, y + o.2) := by
  simp only [offsets, List.mem_cons, List.not_mem_nil, or_false] at ho
  rcases ho with rfl | rfl | rfl | rfl | rfl | rfl | rfl | rfl | rfl
  all_goals
    simp only [visit, Permitted, Near]
    norm_num
    try grind

/-- The neighbours that `genNeighbors` lists are those a permitted step leads to. -/
theorem mem_neighborEntries_iff {R : Type*} [Zero R] [LT R] [DecidableLT R]
    {obstacleMap : ℤ → ℤ → Bool} {node : Node R} {e : Node R × R} :
    e ∈ neighborEntries obstacleMap node ↔
      e = (newNode e.1.x e.1.y 0, 0) ∧ Permitted obstacleMap (cell node) (cell e.1) := by
  rw [mem_neighborEntries]
  constructor
  · rintro ⟨o, ho, hvisit, rfl⟩
    exact ⟨rfl, (visit_iff obstacleMap node.x node.y ho).mp hvisit⟩
  · rintro ⟨he, hstep⟩
    obtain ⟨-, ⟨hx, hy⟩, -, -⟩ := id hstep
    have hoffset : ∀ i j : ℤ, |i| ≤ 1 → |j| ≤ 1 → (i, j) ∈ offsets := by
      intro i j hi hj
      rw [abs_le] at hi hj
      have hi' : i = -1 ∨ i = 0 ∨ i = 1 := by omega
      have hj' : j = -1 ∨ j = 0 ∨ j = 1 := by omega
      rcases hi' with rfl | rfl | rfl <;> rcases hj' with rfl | rfl | rfl <;> decide
    have ho := hoffset (e.1.x - node.x) (e.1.y - node.y) hx hy
    refine ⟨_, ho, (visit_iff obstacleMap node.x node.y ho).mpr ?_, ?_⟩
    · simpa [cell] using hstep
    · simpa using he

/-! ### Back links -/

/-- A node whose back links lead to the pose by permitted steps, with the length of the path. -/
inductive Traced (obstacleMap : ℤ → ℤ → Bool) (a : ℤ × ℤ) : Node ℝ → Prop
  | pose : Traced obstacleMap a ⟨a.1, a.2, 0, none⟩
  | step {current : Node ℝ} {x y : ℤ} (h : Traced obstacleMap a current)
      (hstep : Permitted obstacleMap (cell current) (x, y)) :
      Traced obstacleMap a
        ⟨x, y, current.gScore + distance (cell current) (x, y), some current⟩

/-- The path along the back links. -/
def backPath : Node ℝ → List (ℤ × ℤ)
  | ⟨x, y, _, none⟩ => [(x, y)]
  | ⟨x, y, _, some back⟩ => backPath back ++ [(x, y)]

theorem nodes_push (list : NodeList ℝ) (n : Node ℝ) : nodes (push list n) = n :: nodes list := rfl

theorem map_cell_nodes_extractPath : ∀ (n : Node ℝ) (list : NodeList ℝ),
    (nodes (extractPath list n)).map cell = backPath n ++ (nodes list).map cell
  | ⟨_, _, _, none⟩, _ => rfl
  | ⟨x, y, g, some back⟩, list => by
    rw [extractPath, map_cell_nodes_extractPath back, nodes_push, backPath, List.append_assoc]
    rfl

theorem pathLength_concat {path : List (ℤ × ℤ)} {a : ℤ × ℤ} (b : ℤ × ℤ)
    (h : path.getLast? = some a) : pathLength (path ++ [b]) = pathLength path + distance a b := by
  induction path with
  | nil => cases h
  | cons x path ih =>
    cases path with
    | nil =>
      obtain rfl : x = a := by simpa using h
      simp [pathLength]
    | cons y path =>
      rw [List.getLast?_cons_cons] at h
      rw [List.cons_append, List.cons_append, pathLength, ← List.cons_append, ih h, pathLength,
        add_assoc]

/-- A path that goes on by a step. -/
theorem IsPath.concat {obstacleMap : ℤ → ℤ → Bool} {a b d : ℤ × ℤ} {path : List (ℤ × ℤ)}
    (h : IsPath obstacleMap a b path) (hstep : Permitted obstacleMap b d) :
    IsPath obstacleMap a d (path ++ [d]) := by
  refine ⟨?_, by simp, ?_⟩
  · rw [List.head?_append, h.head, Option.some_or]
  · refine h.steps.append (.singleton d) ?_
    intro x hx y hy
    obtain rfl : b = x := by simpa [h.last] using hx
    obtain rfl : d = y := by simpa using hy
    exact hstep

/-- The path along the back links of a node, and its length. -/
theorem Traced.isPath {obstacleMap : ℤ → ℤ → Bool} {a : ℤ × ℤ} {n : Node ℝ}
    (h : Traced obstacleMap a n) :
    IsPath obstacleMap a (cell n) (backPath n) ∧ pathLength (backPath n) = n.gScore := by
  induction h with
  | pose => exact ⟨⟨rfl, rfl, .singleton _⟩, rfl⟩
  | step h hstep ih =>
    obtain ⟨hpath, hlength⟩ := ih
    exact ⟨hpath.concat hstep, by rw [backPath, pathLength_concat _ hpath.last, hlength]⟩

/-! ### The problem that the search solves -/

/-- The cells with the permitted steps, the distances, and the distance to the goal as the
estimate. -/
noncomputable def problem (obstacleMap : ℤ → ℤ → Bool) (pose goal : PointI) :
    BestFirst.Problem (ℤ × ℤ) ℝ where
  start := (pose.x, pose.y)
  Step := Permitted obstacleMap
  weight := distance
  estimate a := distance a (goal.x, goal.y)

theorem consistent_problem (obstacleMap : ℤ → ℤ → Bool) (pose goal : PointI) :
    (problem obstacleMap pose goal).Consistent :=
  fun v w _ => distance_triangle v w (goal.x, goal.y)

theorem reach_of_isChain {obstacleMap : ℤ → ℤ → Bool} {pose goal : PointI} {v b : ℤ × ℤ}
    {l : ℝ} {path : List (ℤ × ℤ)} (hreach : BestFirst.Reach (problem obstacleMap pose goal) v l)
    (hsteps : (v :: path).IsChain (Permitted obstacleMap)) (hlast : (v :: path).getLast? = some b) :
    BestFirst.Reach (problem obstacleMap pose goal) b (l + pathLength (v :: path)) := by
  induction path generalizing v l with
  | nil =>
    obtain rfl : v = b := by simpa using hlast
    simpa [pathLength] using hreach
  | cons w path ih =>
    obtain ⟨hstep, hrest⟩ := List.isChain_cons_cons.mp hsteps
    rw [List.getLast?_cons_cons] at hlast
    rw [pathLength, ← add_assoc]
    exact ih (hreach.step hstep) hrest hlast

/-- A path is a walk of its length. -/
theorem IsPath.reach {obstacleMap : ℤ → ℤ → Bool} {pose goal : PointI} {b : ℤ × ℤ}
    {path : List (ℤ × ℤ)} (h : IsPath obstacleMap (pose.x, pose.y) b path) :
    BestFirst.Reach (problem obstacleMap pose goal) b (pathLength path) := by
  obtain ⟨path, rfl⟩ := List.head?_eq_some_iff.mp h.head
  have hreach : BestFirst.Reach (problem obstacleMap pose goal) b
      (0 + pathLength ((pose.x, pose.y) :: path)) := reach_of_isChain .start h.steps h.last
  rwa [zero_add] at hreach

end S3RES.AStar
