import S3RES.VoterD.Alignment
import S3RES.VoterD.StartState

/-!
# A restart and the input under way

`restartPrep` takes the pending input of the parent with one `read` per pipe and, when the fork
has its pipes, gives it to both. `conserved_restartPrep_iff`: parent and fork then have exactly
this input ahead of them if and only if it fits into the buffer of that `read`.
-/

namespace S3RES.VoterD

open Loop Memory StepSystem

variable {c : Config} {s t : State} {u v p : ℕ}

/-- On in pipe `p` both slots have the input slot `u` had before. -/
def Conserved (s t : State) (u v p : ℕ) : Prop :=
  t.queue u p = s.queue u p ∧ t.queue v p = s.queue u p

instance (s t : State) (u v p : ℕ) : Decidable (Conserved s t u v p) :=
  inferInstanceAs (Decidable (_ ∧ _))

/-- From an in pipe one buffer's worth is taken. -/
theorem stolen_eq_take (h : Plumbed c s) (hu : u < c.repCount) (hp : p < c.pipeCount)
    (hin : ¬ c.IsOut p) : stolen s u p = (s.queue u p).take maxVotePipeBuff :=
  if_pos ((h.wired u hu).inward p hp hin).2

/-- What is unread on the in pipes after a restart: what was taken, behind what was not. -/
theorem queue_restartPrep (hplumbed : Plumbed c s)
    (hs : ∀ p < c.pipeCount, c.IsOut p → SyncedBut c s v p) (hu : u < c.repCount)
    (hv : v < c.repCount) (huv : u ≠ v) (sched : ℕ → ℕ → Bool) (hp : p < c.pipeCount)
    (hin : ¬ c.IsOut p) :
    (restartPrep c s v u sched).queue u p =
        (s.queue u p).drop maxVotePipeBuff ++ (s.queue u p).take maxVotePipeBuff ∧
      (restartPrep c s v u sched).queue v p = (s.queue u p).take maxVotePipeBuff := by
  have hprepared := prepared_copies hplumbed hs hu hv huv sched
  have hcount : (s.replicas u).pipeCount = c.pipeCount := hplumbed.pipeCount hu
  simp only [restartPrep]
  set buffer := fun i => if i < (s.replicas u).pipeCount then stolen s u i else [] with hbuffer
  have htaken : buffer p = (s.queue u p).take maxVotePipeBuff := by
    rw [hbuffer]
    dsimp only
    rw [if_pos (hcount ▸ hp), stolen_eq_take hplumbed hu hp hin]
  have hleft : (stealPipes s u).queue u p = (s.queue u p).drop maxVotePipeBuff := by
    rw [stealPipes_eq]
    simp [hcount, hp, stolen_eq_take hplumbed hu hp hin]
  set s₄ := loop (copyAndSend c v u) c.pipeCount
    (restartReplica c { stealPipes s u with timerStarted := false } u v sched)
  have hqueue : s₄.queue u p = (s.queue u p).drop maxVotePipeBuff ∧ s₄.queue v p = [] := by
    rw [hprepared.queue]
    refine ⟨?_, by simp [hp]⟩
    rw [Function.update_of_ne huv, hleft]
  have hcounts : (s₄.replicas u).pipeCount = c.pipeCount ∧
      (s₄.replicas v).pipeCount = c.pipeCount :=
    ⟨hprepared.plumbed.pipeCount hu, hprepared.plumbed.pipeCount hv⟩
  rw [returnPipes_eq, returnPipes_eq]
  constructor
  · simp [huv, hcounts.1, hp, hqueue.1, htaken]
  · simp [huv.symm, hcounts.2, hp, hqueue.2, htaken]

/-- **Pending input.** In every reachable state, whatever is unread on the pipes, a restart of
slot `v` from slot `u` gives both exactly the input `u` had pending if and only if this is at
most one buffer on each in pipe. -/
theorem conserved_restartPrep_iff {s₀ : State} (hinit : Initial c s₀)
    (hreach : Reaches (step c) (fun _ _ => True) s₀ s) (hu : u < c.repCount)
    (hv : v < c.repCount) (huv : u ≠ v) (sched : ℕ → ℕ → Bool) (queue : ℕ → ℕ → List UInt8)
    (ht : t = { s with queue := queue } ∨
      ∃ sched', t = balance c { s with queue := queue } sched') :
    (∀ p < c.pipeCount, ¬ c.IsOut p → Conserved t (restartPrep c t v u sched) u v p) ↔
      ∀ p < c.pipeCount, ¬ c.IsOut p → (t.queue u p).length ≤ maxVotePipeBuff := by
  have hwf := wellFormed_of_reaches hinit hreach
  have hplumbed : Plumbed c { s with queue := queue } := hwf.plumbed.congr rfl rfl
  have hsynced : ∀ p < c.pipeCount, c.IsOut p → Synced c { s with queue := queue } p :=
    fun p hp hout => (hwf.synced p hp hout).congr fun _ _ => rfl
  have hquiet : Quiet c { s with queue := queue } t := by
    rcases ht with rfl | ⟨sched', rfl⟩
    · exact .refl _
    · exact quiet_balance _ sched'
  have hqueue : ∀ p < c.pipeCount, ¬ c.IsOut p →
      (restartPrep c t v u sched).queue u p =
          (t.queue u p).drop maxVotePipeBuff ++ (t.queue u p).take maxVotePipeBuff ∧
        (restartPrep c t v u sched).queue v p = (t.queue u p).take maxVotePipeBuff :=
    fun p hp hin => queue_restartPrep (hquiet.plumbed hplumbed)
      (fun p hp hout => (hquiet.synced (hsynced p hp hout)).but v) hu hv huv sched hp hin
  refine forall₂_congr fun p hp => imp_congr_right fun hin => ?_
  obtain ⟨hparent, hfork⟩ := hqueue p hp hin
  rw [Conserved, hparent, hfork]
  constructor
  · intro h
    have hlength := congrArg List.length h.2
    rw [List.length_take] at hlength
    omega
  · intro h
    rw [List.drop_eq_nil_of_le h, List.take_of_length_le h]
    exact ⟨rfl, rfl⟩

/-- One request is pending when replica 0 is restarted. -/
theorem conserved_restartPrep_request :
    Conserved { start rangerConfig 6 with queue := fun _ _ => [1] }
      (restartPrep rangerConfig { start rangerConfig 6 with queue := fun _ _ => [1] } 0 1 granted)
      1 0 0 :=
  (conserved_restartPrep_iff initial_ranger .refl (by decide +kernel) (by decide +kernel)
    (by decide) granted (fun _ _ => [1]) (.inl rfl)).mpr (by decide +kernel) 0 (by decide +kernel)
    (by decide +kernel)

/-- Two answers of the planner reach ArtPot, the first as long as the buffer. -/
def longInput : List Act :=
  [.externalWrites 2 (List.replicate 4096 1), .update granted, .select, .external granted] ++
    List.replicate 13 .scan ++ [.externalWrites 2 [2], .update granted, .select, .external granted]

/-- The fork does not get the second answer, and its parent gets it first. -/
theorem restartPrep_not_conserved : ∃ s,
    Reaches (step artPotConfig) (fun _ _ => True) (start artPotConfig 7) s ∧
      (s.queue 1 2).length = 4097 ∧
      ((restartPrep artPotConfig s 0 1 granted).queue 0 2).length = 4096 ∧
      ((restartPrep artPotConfig s 0 1 granted).queue 1 2).head? = some 2 ∧
      ¬ Conserved s (restartPrep artPotConfig s 0 1 granted) 1 0 2 :=
  ⟨follow (step artPotConfig) longInput (start artPotConfig 7),
    reaches_follow (allSteps_true _ _) (by decide +kernel), by decide +kernel⟩

end S3RES.VoterD
