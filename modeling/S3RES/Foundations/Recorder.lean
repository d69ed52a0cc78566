import S3RES.Foundations.StepSystem

/-!
# Auxiliary variables

`record step note` runs a step system next to a variable of type `η` that `note` updates at
every step and no step looks at. A recorded run is a run (`Reaches.forget`), and every run can
be recorded (`Reaches.exists_record`), so that what is shown of the record of every recorded
run is a statement about every run.
-/

namespace StepSystem

variable {σ α η : Type*} {step : σ → α → Option σ} {note : σ → α → η → η} {ok : σ → α → Prop}
  {s t : σ} {h : η} {x : σ × η}

/-- The system next to an auxiliary variable. -/
def record (step : σ → α → Option σ) (note : σ → α → η → η) (x : σ × η) (a : α) :
    Option (σ × η) :=
  (step x.1 a).map fun t => (t, note x.1 a x.2)

theorem mem_record {a : α} {y : σ × η} :
    y ∈ record step note x a ↔ y.1 ∈ step x.1 a ∧ y.2 = note x.1 a x.2 := by
  obtain ⟨t, h⟩ := y
  simp only [record, Option.mem_def, Option.map_eq_some_iff, Prod.mk.injEq]
  constructor
  · rintro ⟨u, hu, rfl, rfl⟩
    exact ⟨hu, rfl⟩
  · rintro ⟨ht, rfl⟩
    exact ⟨t, ht, rfl, rfl⟩

/-- A recorded run is a run. -/
theorem Reaches.forget (hreach : Reaches (record step note) (fun x => ok x.1) (s, h) x) :
    Reaches step ok s x.1 := by
  induction hreach with
  | refl => exact .refl
  | tail _ hok hu ih => exact .tail ih hok (mem_record.mp hu).1

theorem run_forget {as : List α} {h' : η}
    (hrun : run (record step note) as (s, h) = some (t, h')) : run step as s = some t := by
  obtain ⟨u, hu, rfl⟩ := run_simulation (R := fun x u => x.1 = u)
    (fun x _ a y hx hy => ⟨y.1, hx ▸ (mem_record.mp hy).1, rfl⟩) rfl hrun
  exact hu

/-- Every run can be recorded. -/
theorem Reaches.exists_record (note : σ → α → η → η) (h : η) (hreach : Reaches step ok s t) :
    ∃ h', Reaches (record step note) (fun x => ok x.1) (s, h) (t, h') := by
  induction hreach with
  | refl => exact ⟨h, .refl⟩
  | tail _ hok hu ih =>
    obtain ⟨h', ih⟩ := ih
    exact ⟨_, .tail ih hok (mem_record.mpr ⟨hu, rfl⟩)⟩

end StepSystem
