import Mathlib

/-!
# Labelled step systems

A system is a partial step function `step : σ → α → Option σ`: `step s a = none` says that
the action `a` is not enabled in `s`. `run` follows a list of actions; `Reaches ok s t`
says that some run leads from `s` to `t`, each of its steps meeting `ok` in the state it
starts from. The induction rules of the development are `Reaches.invariant` (what every
step preserves holds along every run), `Reaches.project` (a run of a system is a run of its
parts) and `run_simulation` (a simulation lifts from steps to runs); `reaches_follow` turns an
evaluated run into a `Reaches`.
-/

namespace StepSystem

variable {σ τ α β : Type*} {step : σ → α → Option σ} {step' : τ → α → Option τ}
  {ok ok' : σ → α → Prop} {s t u : σ} {as : List α}

/-- Follow a list of actions. -/
def run (step : σ → α → Option σ) : List α → σ → Option σ
  | [], s => some s
  | a :: as, s => (step s a).bind (run step as)

/-- Every step of the run that follows the list meets `ok`. -/
def AllSteps (step : σ → α → Option σ) (ok : σ → α → Prop) : List α → σ → Prop
  | [], _ => True
  | a :: as, s => ok s a ∧ ∀ t ∈ step s a, AllSteps step ok as t

instance decidableAllSteps [∀ s a, Decidable (ok s a)] :
    ∀ (as : List α) (s : σ), Decidable (AllSteps step ok as s)
  | [], _ => inferInstanceAs (Decidable True)
  | a :: as, s =>
    have (t : σ) : Decidable (AllSteps step ok as t) := decidableAllSteps as t
    inferInstanceAs (Decidable (ok s a ∧ ∀ t ∈ step s a, AllSteps step ok as t))

/-- Some run whose steps all meet `ok` leads from `s` to the given state. -/
inductive Reaches (step : σ → α → Option σ) (ok : σ → α → Prop) (s : σ) : σ → Prop
  | refl : Reaches step ok s s
  | tail {t u : σ} {a : α} (h : Reaches step ok s t) (hok : ok t a) (hu : u ∈ step t a) :
      Reaches step ok s u

@[simp] theorem run_nil (s : σ) : run step [] s = some s := rfl

@[simp] theorem run_cons (a : α) (as : List α) (s : σ) :
    run step (a :: as) s = (step s a).bind (run step as) := rfl

/-- **Invariants.** What holds at the start and is preserved by every step that meets `ok`
holds wherever such steps lead. -/
theorem Reaches.invariant {I : σ → Prop} (h : Reaches step ok s t) (h₀ : I s)
    (hstep : ∀ t a u, I t → ok t a → u ∈ step t a → I u) : I t := by
  induction h with
  | refl => exact h₀
  | tail _ hok hu ih => exact hstep _ _ _ ih hok hu

/-- A run under a stronger condition is a run under a weaker one. -/
theorem Reaches.mono (h : Reaches step ok s t) (hok : ∀ t a, ok t a → ok' t a) :
    Reaches step ok' s t := by
  induction h with
  | refl => exact .refl
  | tail _ hk hu ih => exact .tail ih (hok _ _ hk) hu

theorem Reaches.trans (h : Reaches step ok s t) (h' : Reaches step ok t u) :
    Reaches step ok s u := by
  induction h' with
  | refl => exact h
  | tail _ hok hu ih => exact .tail ih hok hu

/-- **Projection.** Where every step is a step of another system on a part of the state, or leaves
that part alone, a run is a run of the other system. -/
theorem Reaches.project {f : σ → τ} {ok' : τ → β → Prop} {step' : τ → β → Option τ}
    (h : Reaches step ok s t)
    (hstep : ∀ t a u, ok t a → u ∈ step t a → f u = f t ∨ ∃ b, ok' (f t) b ∧ f u ∈ step' (f t) b) :
    Reaches step' ok' (f s) (f t) := by
  induction h with
  | refl => exact .refl
  | tail _ hok hu ih =>
    rcases hstep _ _ _ hok hu with hsame | ⟨b, hok', hu'⟩
    · exact hsame ▸ ih
    · exact .tail ih hok' hu'

/-- A run that was followed step by step reaches its last state. -/
theorem reaches_of_run (hall : AllSteps step ok as s)
    (hrun : run step as s = some t) : Reaches step ok s t := by
  induction as generalizing s with
  | nil =>
    obtain rfl : s = t := by simpa using hrun
    exact .refl
  | cons a as ih =>
    obtain ⟨u, hu, hrest⟩ := Option.bind_eq_some_iff.mp hrun
    exact (Reaches.tail .refl hall.1 hu).trans (ih (hall.2 u hu) hrest)

/-- What every step preserves, together with the number of the steps, holds after a run. -/
theorem run_invariant {I : ℕ → σ → Prop} (h₀ : I 0 s)
    (hstep : ∀ k t a u, I k t → u ∈ step t a → I (k + 1) u) (hrun : run step as s = some t) :
    I as.length t := by
  have hrest : ∀ (as : List α) (k : ℕ) (s : σ), I k s → run step as s = some t →
      I (k + as.length) t := by
    intro as
    induction as with
    | nil =>
      intro k s hs hrun
      obtain rfl : s = t := by simpa using hrun
      exact hs
    | cons a as ih =>
      intro k s hs hrun
      obtain ⟨u, hu, hrun'⟩ := Option.bind_eq_some_iff.mp hrun
      have hu' := ih (k + 1) u (hstep k s a u hs hu) hrun'
      rwa [List.length_cons, Nat.add_comm as.length 1, ← Nat.add_assoc]
  simpa using hrest as 0 s h₀ hrun

/-- There is a run of every length, unless a shorter one ends where no action is enabled. -/
theorem exists_run (step : σ → α → Option σ) (k : ℕ) (s : σ) :
    ∃ as t, run step as s = some t ∧ as.length ≤ k ∧
      (as.length = k ∨ ∀ a, step t a = none) := by
  induction k generalizing s with
  | zero => exact ⟨[], s, rfl, le_rfl, .inl rfl⟩
  | succ k ih =>
    by_cases hstuck : ∀ a, step s a = none
    · exact ⟨[], s, rfl, Nat.zero_le _, .inr hstuck⟩
    · obtain ⟨a, ha⟩ := not_forall.mp hstuck
      obtain ⟨u, hu⟩ := Option.ne_none_iff_exists'.mp ha
      obtain ⟨as, t, hrun, hle, hend⟩ := ih u
      refine ⟨a :: as, t, by rw [run_cons, hu, Option.bind_some, hrun], Nat.succ_le_succ hle, ?_⟩
      exact hend.imp_left (congrArg (· + 1))

/-- The steps of a run are those of its first part and those behind it. -/
theorem allSteps_append {bs : List α} : AllSteps step ok (as ++ bs) s ↔
    AllSteps step ok as s ∧ ∀ t ∈ run step as s, AllSteps step ok bs t := by
  induction as generalizing s with
  | nil => simp [AllSteps]
  | cons a as ih =>
    simp only [List.cons_append, AllSteps, ih, run_cons, Option.mem_def, Option.bind_eq_some_iff,
      and_assoc, forall_and, forall_exists_index, and_imp]
    exact and_congr_right fun _ => and_congr_right fun _ =>
      ⟨fun h t u hu ht => h u hu t ht, fun h u hu t ht => h t u hu ht⟩

theorem AllSteps.imp (h : AllSteps step ok as s) (hok : ∀ t a, ok t a → ok' t a) :
    AllSteps step ok' as s := by
  induction as generalizing s with
  | nil => trivial
  | cons a as ih => exact ⟨hok s a h.1, fun t ht => ih (h.2 t ht)⟩

theorem allSteps_true (as : List α) (s : σ) : AllSteps step (fun _ _ => True) as s := by
  induction as generalizing s with
  | nil => trivial
  | cons a as ih => exact ⟨trivial, fun t _ => ih t⟩

theorem allSteps_of_forall (h : ∀ a ∈ as, ∀ s, ok s a) (s : σ) : AllSteps step ok as s := by
  induction as generalizing s with
  | nil => trivial
  | cons a as ih =>
    obtain ⟨ha, has⟩ := List.forall_mem_cons.mp h
    exact ⟨ha s, fun t _ => ih has t⟩

/-- The state a list of actions leads to; `s` where it cannot be followed. -/
def follow (step : σ → α → Option σ) (as : List α) (s : σ) : σ := (run step as s).getD s

theorem run_eq_follow (h : (run step as s).isSome) : run step as s = some (follow step as s) := by
  obtain ⟨t, ht⟩ := Option.isSome_iff_exists.mp h
  rw [follow, ht, Option.getD_some]

/-- A run that can be followed reaches the state it leads to. -/
theorem reaches_follow (hall : AllSteps step ok as s) (h : (run step as s).isSome) :
    Reaches step ok s (follow step as s) :=
  reaches_of_run hall (run_eq_follow h)

/-- **Simulation.** A relation that every step of one system can follow in another is
followed by whole runs. -/
theorem run_simulation {R : σ → τ → Prop}
    (hstep : ∀ s x a t, R s x → t ∈ step s a → ∃ y ∈ step' x a, R t y)
    {x : τ} (hR : R s x) (hrun : run step as s = some t) :
    ∃ y, run step' as x = some y ∧ R t y := by
  induction as generalizing s x with
  | nil =>
    obtain rfl : s = t := by simpa using hrun
    exact ⟨x, rfl, hR⟩
  | cons a as ih =>
    obtain ⟨u, hu, hrest⟩ := Option.bind_eq_some_iff.mp hrun
    obtain ⟨y, hy, hRy⟩ := hstep s x a u hR hu
    obtain ⟨z, hz, hRz⟩ := ih hRy hrest
    exact ⟨z, by rw [run_cons, Option.mem_def.mp hy]; exact hz, hRz⟩

end StepSystem
