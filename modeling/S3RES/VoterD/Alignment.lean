import S3RES.VoterD.Startup

/-!
# A restart and the output under way

After `restartPrep` the fork and its parent should have the same output ahead of them.
`aligned_restartPrep_iff`: they do exactly if nothing of the parent was left unread. The
copy takes what the voter has already read; what the parent has written since is still in
its pipe, and the fork will not write it again.
-/

namespace S3RES.VoterD

open StepSystem

variable {c : Config} {s t : State} {u v p : ℕ}

/-- The output slots `u` and `v` have at the voter or under way to it is the same. -/
def Aligned (s : State) (u v p : ℕ) : Prop :=
  (s.vot v p).content ++ s.queue v p = (s.vot u p).content ++ s.queue u p

instance (s : State) (u v p : ℕ) : Decidable (Aligned s u v p) :=
  inferInstanceAs (Decidable (_ = _))

/-- After a restart only the parent's unread output separates it from its fork. -/
theorem Reforked.aligned_iff (h : Reforked c s t u v) (hs : Synced c s p) (hp : p < c.pipeCount)
    (hout : c.IsOut p) (hu : u < c.repCount) (huv : u ≠ v) :
    Aligned t u v p ↔ s.queue u p = [] := by
  have hreplaced := h.replaced p hp hout
  have hfork := hreplaced.content_fork (hs.but v) hu huv
  have hparent := hreplaced.content hu huv
  rw [Aligned, hfork, hparent, h.queue p hp hout, h.queue p hp hout, if_pos rfl, if_neg huv,
    List.append_cancel_left_eq]
  exact eq_comm

/-- **Alignment.** In every reachable state, restarting slot `v` from slot `u` leaves the
two aligned on all out pipes if and only if no output of `u` was unread. -/
theorem aligned_restartPrep_iff {s₀ : State} (hinit : Initial c s₀)
    (hreach : Reaches (step c) (fun _ _ => True) s₀ s) (hu : u < c.repCount)
    (hv : v < c.repCount) (huv : u ≠ v) (sched : ℕ → ℕ → Bool)
    (ht : t = s ∨ ∃ sched', t = balance c s sched') :
    (∀ p < c.pipeCount, c.IsOut p → Aligned (restartPrep c t v u sched) u v p) ↔
      ∀ p < c.pipeCount, c.IsOut p → t.queue u p = [] := by
  have hwf := wellFormed_of_reaches hinit hreach
  have hquiet : Quiet c s t := by
    rcases ht with rfl | ⟨sched', rfl⟩
    · exact .refl t
    · exact quiet_balance s sched'
  have hsynced : ∀ p < c.pipeCount, c.IsOut p → Synced c t p := fun p hp hout =>
    hquiet.synced (hwf.synced p hp hout)
  have hreforked := reforked_restartPrep (hquiet.plumbed hwf.plumbed)
    (fun p hp hout => (hsynced p hp hout).but v) hu hv huv sched
  constructor
  · intro h p hp hout
    exact (hreforked.aligned_iff (hsynced p hp hout) hp hout hu huv).mp (h p hp hout)
  · intro h p hp hout
    exact (hreforked.aligned_iff (hsynced p hp hout) hp hout hu huv).mpr (h p hp hout)

/-- TMR with one timed input and one timed output. -/
def rangerConfig : Config :=
  parseArgs "TMR" 1000 25 [⟨"RANGE_POSE_DATA", 3, 0, true⟩, ⟨"MOV_CMD", 0, 4, true⟩]
    fun _ => zeroPipe

theorem initial_ranger : Initial rangerConfig (start rangerConfig 6) :=
  initial_start (by decide +kernel) (by decide) (by decide +kernel)

/-- Replica 0 differs from the others; replica 1 writes once more before the vote. -/
def writeBeforeVote : List Act :=
  [.replicaWrites 0 1 [88], .replicaWrites 1 1 [65], .replicaWrites 2 1 [65], .update granted,
    .select, .external granted, .scan, .scan, .scan, .scan, .vote granted, .scan,
    .vote granted, .scan, .replicaWrites 1 1 [66]]

/-- Nothing is unread at start-up, so a restart then leaves parent and fork aligned. -/
theorem aligned_restartPrep_at_start :
    Aligned (restartPrep rangerConfig (start rangerConfig 6) 0 1 granted) 1 0 1 :=
  (aligned_restartPrep_iff initial_ranger .refl (by decide +kernel) (by decide +kernel)
    (by decide) granted (.inl rfl)).mpr (by decide +kernel) 1 (by decide +kernel)
    (by decide +kernel)

/-- The vote on pipe 1 restarts replica 0 from replica 1, whose last byte is unread: the
fork is never going to send it. -/
theorem restartPrep_not_aligned : ∃ s,
    Reaches (step rangerConfig) (fun _ _ => True) (start rangerConfig 6) s ∧
      ¬ Aligned (restartPrep rangerConfig (balance rangerConfig s (granted 0)) 0 1 granted)
        1 0 1 ∧
      ∃ t, Reaches (step rangerConfig) (fun _ _ => True) s t ∧ ¬ Aligned t 1 0 1 :=
  ⟨follow (step rangerConfig) writeBeforeVote (start rangerConfig 6),
    reaches_follow (allSteps_true _ _) (by decide +kernel), by decide +kernel,
    follow (step rangerConfig) [.vote granted]
      (follow (step rangerConfig) writeBeforeVote (start rangerConfig 6)),
    reaches_follow (allSteps_true _ _) (by decide +kernel), by decide +kernel⟩

end S3RES.VoterD
