import Mathlib

/-!
# Best-first search with a consistent estimate

A search keeps vertices it has settled and an open list, each vertex with the cost of a walk
that leads to it. `Frontier` is its invariant: settled vertices have their least cost, and every
edge out of a settled vertex, but those that are still due, leads to a settled vertex or to an
open one that is at least as cheap. A search settles the open vertex of the least cost plus
estimate (`Frontier.settle`), relaxes the edges out of it (`Frontier.relax`), and so finds the
least cost of everything it settles (`Frontier.le_of_reach`), if the estimate is consistent.
-/

namespace BestFirst

variable {V R : Type*} [AddCommGroup R] [LinearOrder R]

/-- A graph with weights, a start, and an estimate of the way that is left. -/
structure Problem (V R : Type*) where
  start : V
  Step : V → V → Prop
  weight : V → V → R
  estimate : V → R

/-- A walk from the start to a vertex has this length. -/
inductive Reach (P : Problem V R) : V → R → Prop
  | start : Reach P P.start 0
  | step {v w : V} {l : R} (h : Reach P v l) (hstep : P.Step v w) :
      Reach P w (l + P.weight v w)

/-- No edge lowers the estimate by more than its weight. -/
def Problem.Consistent (P : Problem V R) : Prop :=
  ∀ v w, P.Step v w → P.estimate v ≤ P.weight v w + P.estimate w

/-- The invariant of the search: `opened` and `closed` are vertices with their costs, `due` the
edges that were not relaxed yet. -/
structure Frontier (P : Problem V R) (opened closed : Set (V × R)) (due : Set (V × V)) : Prop where
  start : (∃ c, (P.start, c) ∈ closed) ∨ ∃ c ≤ 0, (P.start, c) ∈ opened
  optimal : ∀ v c, (v, c) ∈ closed → ∀ l, Reach P v l → c ≤ l
  next : ∀ v c, (v, c) ∈ closed → ∀ w, P.Step v w → (v, w) ∉ due →
    (∃ c', (w, c') ∈ closed) ∨ ∃ c' ≤ c + P.weight v w, (w, c') ∈ opened

variable {P : Problem V R} {opened opened' closed : Set (V × R)} {due : Set (V × V)} {v w : V}
  {c l : R}

/-- At the start only the start is open. -/
theorem frontier_start (P : Problem V R) : Frontier P {(P.start, 0)} ∅ ∅ :=
  ⟨.inr ⟨0, le_rfl, rfl⟩, fun _ _ h => h.elim, fun _ _ h => h.elim⟩

/-- Relaxing an edge: open costs only go down, and the vertex it leads to is settled or cheap
enough. -/
theorem Frontier.relax (h : Frontier P opened closed due)
    (hkeep : ∀ u c', (u, c') ∈ opened → ∃ c'' ≤ c', (u, c'') ∈ opened')
    (hnext : ∀ c, (v, c) ∈ closed →
      (∃ c', (w, c') ∈ closed) ∨ ∃ c' ≤ c + P.weight v w, (w, c') ∈ opened') :
    Frontier P opened' closed (due \ {(v, w)}) := by
  refine ⟨h.start.imp_right ?_, h.optimal, ?_⟩
  · rintro ⟨c, hc, hstart⟩
    obtain ⟨c', hc', hopen⟩ := hkeep _ _ hstart
    exact ⟨c', hc'.trans hc, hopen⟩
  · intro u cu hu x hstep hdue
    by_cases heq : (u, x) = (v, w)
    · obtain ⟨rfl, rfl⟩ := Prod.mk.inj heq
      exact hnext cu hu
    · have hnot : (u, x) ∉ due := fun hmem => hdue ⟨hmem, heq⟩
      refine (h.next u cu hu x hstep hnot).imp_right ?_
      rintro ⟨c', hc', hopen⟩
      obtain ⟨c'', hc'', hopen'⟩ := hkeep _ _ hopen
      exact ⟨c'', hc''.trans hc', hopen'⟩

/-- Edges that are none, or that were relaxed, are not due. -/
theorem Frontier.due_congr {due' : Set (V × V)} (h : Frontier P opened closed due)
    (hdue : ∀ v w, (v, w) ∈ due → P.Step v w → (v, w) ∈ due') :
    Frontier P opened closed due' :=
  ⟨h.start, h.optimal, fun v c hv w hstep hnot =>
    h.next v c hv w hstep fun hmem => hnot (hdue v w hmem hstep)⟩

variable [IsOrderedAddMonoid R]

/-- On every walk to a vertex that is not settled there is an open vertex, from which on the
walk is not shorter than the estimate. -/
theorem Frontier.exists_opened (h : Frontier P opened closed ∅) (hP : P.Consistent)
    (hreach : Reach P v l) :
    (∃ c, (v, c) ∈ closed) ∨
      ∃ u c, (u, c) ∈ opened ∧ c + P.estimate u ≤ l + P.estimate v := by
  induction hreach with
  | start =>
    refine h.start.imp_right ?_
    rintro ⟨c, hc, hopen⟩
    exact ⟨_, c, hopen, by gcongr⟩
  | @step v w l hreach hstep ih =>
    rcases ih with ⟨c, hclosed⟩ | ⟨u, c, hopen, hle⟩
    · refine (h.next v c hclosed w hstep (Set.notMem_empty _)).imp_right ?_
      rintro ⟨c', hc', hopen⟩
      have hcl := h.optimal v c hclosed l hreach
      exact ⟨w, c', hopen, by grw [hc', hcl]⟩
    · refine .inr ⟨u, c, hopen, hle.trans ?_⟩
      rw [add_assoc]
      gcongr
      exact hP v w hstep

/-- **Optimality.** The open vertex of the least cost plus estimate has its least cost. -/
theorem Frontier.le_of_reach (h : Frontier P opened closed ∅) (hP : P.Consistent)
    (hmin : ∀ u c', (u, c') ∈ opened → c + P.estimate v ≤ c' + P.estimate u)
    (hopen : ∀ c', (v, c') ∉ closed) (hreach : Reach P v l) : c ≤ l := by
  rcases h.exists_opened hP hreach with ⟨c', hclosed⟩ | ⟨u, c', hu, hle⟩
  · exact absurd hclosed (hopen c')
  · exact le_of_add_le_add_right ((hmin u c' hu).trans hle)

/-- Settling a vertex of the least cost plus estimate: the edges out of it become due. -/
theorem Frontier.settle (h : Frontier P opened closed ∅) (hP : P.Consistent)
    (hmin : ∀ u c', (u, c') ∈ opened → c + P.estimate v ≤ c' + P.estimate u)
    (hopen : ∀ c', (v, c') ∉ closed)
    (hkeep : ∀ u c', (u, c') ∈ opened → u ≠ v → (u, c') ∈ opened') :
    Frontier P opened' (insert (v, c) closed) {e | e.1 = v} := by
  refine ⟨?_, ?_, ?_⟩
  · rcases h.start with ⟨c', hclosed⟩ | ⟨c', hc', hstart⟩
    · exact .inl ⟨c', .inr hclosed⟩
    · by_cases heq : P.start = v
      · exact .inl ⟨c, heq ▸ Set.mem_insert _ _⟩
      · exact .inr ⟨c', hc', hkeep _ _ hstart heq⟩
  · intro u cu hu l hreach
    rcases hu with heq | hclosed
    · obtain ⟨rfl, rfl⟩ := Prod.mk.inj heq
      exact h.le_of_reach hP hmin hopen hreach
    · exact h.optimal u cu hclosed l hreach
  · intro u cu hu w hstep hdue
    rcases hu with heq | hclosed
    · exact absurd (Prod.mk.inj heq).1 hdue
    · rcases h.next u cu hclosed w hstep (Set.notMem_empty _) with ⟨c', hw⟩ | ⟨c', hc', hw⟩
      · exact .inl ⟨c', .inr hw⟩
      · by_cases heq : w = v
        · exact .inl ⟨c, heq ▸ Set.mem_insert _ _⟩
        · exact .inr ⟨c', hc', hkeep _ _ hw heq⟩

end BestFirst
