import S3RES.VoterD.Rewiring

/-!
# The voter does not run out of descriptors

`restartReplica` closes what the voter holds for a slot, on both sides of its pipes, before it makes
new pipes. `keeps_descriptors`: in every run the voter has as many descriptors open as it had behind
`startReplicas`, and since `pipe` gives the lowest numbers that are free, the numbers stay below any
bound they were below then, such as the one of `select`.

The socket of a connection to the fd server is closed before the next pipe is made, so it is not
among the descriptors here.
-/

namespace S3RES.Rewiring

open Descriptors (Counted End)
open Loop StepSystem
open VoterD (Config)

/-! ### What is open -/

/-- Two descriptors for each pipe that is made. -/
theorem counted_createPipes {n k b : ℕ} {fds : List ℕ} (h : Counted n b fds)
    (extPipes : ℕ → VotePipe) (rep : Replica) (hle : n + 2 * k ≤ b) :
    Counted (n + 2 * k) b (createPipes extPipes k rep fds).2 := by
  refine loop_induction (fun i (t : Replica × List ℕ) => Counted (n + 2 * i) b t.2) h ?_
  intro i hi t ht
  rw [createPipe_snd]
  exact (ht.new allocates_lowestFree (by omega)).new allocates_lowestFree (by omega)

theorem closePipes_sublist (rep : Replica) (fds : List ℕ) : (closePipes rep fds).Sublist fds := by
  have hset : ∀ fd l, (closeSet fd l).Sublist l := by
    intro fd l
    rw [closeSet]
    split
    · exact List.filter_sublist
    · exact List.Sublist.refl l
  refine loop_induction (fun _ (t : List ℕ) => t.Sublist fds) (List.Sublist.refl fds) ?_
  intro i _ t ht
  exact ((((hset _ _).trans (hset _ _)).trans (hset _ _)).trans (hset _ _)).trans ht

theorem nodup_createPipes {fds : List ℕ} (h : fds.Nodup) (extPipes : ℕ → VotePipe) (k : ℕ)
    (rep : Replica) : (createPipes extPipes k rep fds).2.Nodup := by
  refine loop_induction (fun _ (t : Replica × List ℕ) => t.2.Nodup) h fun i _ t ht => ?_
  rw [createPipe_snd]
  exact List.nodup_cons.mpr ⟨lowestFree_not_mem _, List.nodup_cons.mpr ⟨lowestFree_not_mem _, ht⟩⟩

/-! ### What is held for a slot -/

/-- The descriptors the voter holds for slot `r`. -/
def Host.held (c : Config) (h : Host) (r : ℕ) : List ℕ :=
  (List.range c.pipeCount).flatMap fun p =>
    [voterFd (c.extPipes p) (h.voter.plumbing r) p, repFd (c.extPipes p) (h.voter.plumbing r) p]

section Held

variable {c : Config} {live : ℕ → Prop} {h : Host} {ids : ℕ → ℕ → ℕ} {r fd : ℕ}

theorem Host.length_held (c : Config) (h : Host) (r : ℕ) :
    (h.held c r).length = 2 * c.pipeCount := by
  rw [Host.held, List.length_flatMap]
  simp [mul_comm]

/-- The two ends of a pipe are no descriptors of one number, and those of two pipes neither. -/
theorem Joined.nodup_held (hj : Joined c live h ids) (hr : live r) : (h.held c r).Nodup := by
  have hends : ∀ p < c.pipeCount, ∀ fd ∈ [voterFd (c.extPipes p) (h.voter.plumbing r) p,
      repFd (c.extPipes p) (h.voter.plumbing r) p], (h.ends fd).pipe = ids r p := by
    intro p hp fd hfd
    have hjoins := hj.joins r hr p hp
    rcases List.mem_pair.mp hfd with rfl | rfl
    · rw [hjoins.voter]
    · rw [hjoins.rep]
  refine List.nodup_flatMap.mpr ⟨fun p hp => ?_, ?_⟩
  · have hjoins := hj.joins r hr p (List.mem_range.mp hp)
    have hne : voterFd (c.extPipes p) (h.voter.plumbing r) p ≠
        repFd (c.extPipes p) (h.voter.plumbing r) p := by
      intro heq
      have hsame := hjoins.voter.symm.trans ((congrArg h.ends heq).trans hjoins.rep)
      simpa using congrArg End.writes hsame
    simpa using hne
  · refine List.nodup_range.pairwise_of_forall_ne fun p hp q hq hne fd hfd hfd' => hne ?_
    rw [List.mem_range] at hp hq
    have hpipe := (hends p hp fd hfd).symm.trans (hends q hq fd hfd')
    exact (hj.injective r r p q hr hr hp hq hpipe).2

theorem Joined.holds_iff (hj : Joined c live h ids) (hr : live r) :
    (h.voter.plumbing r).Holds fd ↔ fd ∈ h.held c r := by
  have hcount := (hj.plumbed.wired r hr).count
  simp only [Host.held, List.mem_flatMap, List.mem_range, List.mem_pair]
  constructor
  · rintro ⟨hfd, p, hp, hcases⟩
    rw [hcount] at hp
    have hzero := (hj.joins r hr p hp).oneEnd
    have hzero' := (hj.joins r hr p hp).voterOneEnd
    refine ⟨p, hp, ?_⟩
    rw [voterFd, repFd]
    split_ifs at hzero hzero' ⊢
    · rcases hcases with heq | heq | heq | heq
      · exact absurd (heq.trans hzero') hfd
      · exact .inl heq
      · exact .inr heq
      · exact absurd (heq.trans hzero) hfd
    · rcases hcases with heq | heq | heq | heq
      · exact .inl heq
      · exact absurd (heq.trans hzero') hfd
      · exact absurd (heq.trans hzero) hfd
      · exact .inr heq
  · rintro ⟨p, hp, rfl | rfl⟩
    · exact holds_voterFd (hcount.symm ▸ hp) (hj.joins r hr p hp).voter_ne
    · exact holds_repFd (hcount.symm ▸ hp) (hj.joins r hr p hp).rep_ne

/-- A slot is closed and given new pipes. -/
theorem Joined.counted {n b : ℕ} {fds : List ℕ} (hj : Joined c live h ids) (hr : live r)
    (hcounted : Counted n b h.voter.fds) (hnodup : fds.Nodup)
    (hfds : ∀ fd, fd ∈ fds ↔ fd ∈ h.voter.fds ∧ ¬ (h.voter.plumbing r).Holds fd) (rep : Replica) :
    Counted n b (createPipes c.extPipes c.pipeCount rep fds).2 := by
  have hopen : h.held c r ⊆ h.voter.fds := fun fd hfd =>
    hj.plumbed.held_open r hr fd ((hj.holds_iff hr).mpr hfd)
  have hle := (hj.nodup_held hr).length_le_of_subset hopen
  rw [hcounted.length, h.length_held] at hle
  obtain ⟨m, rfl⟩ := Nat.exists_eq_add_of_le' hle
  have hclosed : Counted m b fds := by
    have hall := hcounted
    rw [← h.length_held c r] at hall
    refine hall.close (hj.nodup_held hr) hopen hnodup fun fd => ?_
    rw [hfds, hj.holds_iff hr]
  exact counted_createPipes hclosed c.extPipes rep hcounted.le

end Held

/-! ### Runs -/

section Runs

variable {c : Config} {s s' : System} {n b : ℕ}

theorem nodup_startReplicas {h : Host} {fds : ℕ → List ℕ} (hnodup : h.voter.fds.Nodup)
    (hs : s ∈ startReplicas c h fds) : s.voter.fds.Nodup := by
  rw [startReplicas, Option.mem_def, Option.ite_none_right_eq_some] at hs
  obtain rfl := Option.some.inj hs.2
  have hclosed : (loop (fun r s => VoterD.reinit c s r r) c.repCount h.voter).fds.Nodup :=
    loop_induction (fun _ (t : VoterD.State) => t.fds.Nodup) hnodup fun r _ t ht =>
      (closePipes_sublist _ _).nodup ht
  have hfilled := loop_induction (n := c.repCount)
    (f := fun r s => VoterD.newPipes c s r c.pipeCount)
    (fun _ (t : VoterD.State) => t.fds.Nodup) hclosed fun r _ t ht => nodup_createPipes ht _ _ _
  rw [VoterD.startReplicas]
  exact loop_induction (fun _ (t : VoterD.State) => t.fds.Nodup) hfilled fun r _ t ht => ht

/-- **A restart closes as many descriptors as it opens.** -/
theorem counted_restart {u v : ℕ} {sched : ℕ → ℕ → Bool} {fds : List ℕ} (h : Inv c s)
    (hcounted : Counted n b s.voter.fds) (hs : s' ∈ step c s (.restart u v sched fds)) :
    Counted n b s'.voter.fds := by
  rw [step, Option.mem_def, Option.ite_none_right_eq_some] at hs
  obtain ⟨⟨hu, hv, huv⟩, hs⟩ := hs
  obtain ⟨proc, -, rfl⟩ := Option.map_eq_some_iff.mp hs
  obtain ⟨ids, hj, -⟩ := h
  have hdrop := hj.drop u hv (sched 1)
  dsimp only at hdrop ⊢
  set closed := VoterD.reinit c _ v 0 with hclosed
  have hcount : (closed.replicas u).pipeCount = c.pipeCount :=
    (hdrop.plumbed.wired u ⟨hu, huv⟩).count
  have hplumbing : (VoterD.favour c u v (sched 1) s.voter.replicas v).plumbing =
      s.voter.plumbing v := VoterD.favour_proj Replica.plumbing (fun _ _ => rfl) ..
  have hfds : (VoterD.restartReplica c s.voter u v sched).fds =
      (createPipes c.extPipes (closed.replicas u).pipeCount (closed.replicas v) closed.fds).2 := rfl
  rw [hfds, hcount]
  refine hj.counted hv hcounted ?_ (fun fd => ?_) _
  · exact (closePipes_sublist _ _).nodup ((closePipes_sublist _ _).nodup hcounted.nodup)
  · rw [hclosed, VoterD.reinit_fds, mem_closePipes, hplumbing]
    simp only [cleanupReplica, mem_closePipes, VoterD.State.plumbing, and_assoc, and_self]

/-- **So does a cold restart**, where the only slot is closed and filled. -/
theorem counted_coldRestart {fds : ℕ → List ℕ} (h : Inv c s) (hcounted : Counted n b s.voter.fds)
    (hs : s' ∈ step c s (.coldRestart fds)) : Counted n b s'.voter.fds := by
  rw [step, Option.mem_def, Option.ite_none_right_eq_some] at hs
  obtain ⟨hsmr, hs⟩ := hs
  rw [startReplicas, Option.ite_none_right_eq_some] at hs
  obtain rfl := Option.some.inj hs.2
  have hone : c.repCount = 1 := by
    rw [Config.repCount, hsmr]
    rfl
  obtain ⟨ids, hj, -⟩ := h
  dsimp only
  rw [VoterD.startReplicas, hone]
  simp only [loop_succ, loop_zero]
  refine hj.counted (hone ▸ Nat.one_pos) hcounted ?_ (fun fd => ?_) _
  · exact (closePipes_sublist _ _).nodup ((closePipes_sublist _ _).nodup hcounted.nodup)
  · rw [VoterD.reinit_fds, mem_closePipes]
    simp only [cleanupReplica, mem_closePipes, VoterD.State.plumbing, and_assoc, and_self]

theorem counted_step {a : Act} (h : Inv c s) (hcounted : Counted n b s.voter.fds)
    (hs : s' ∈ step c s a) : Counted n b s'.voter.fds := by
  cases a with
  | restart u v sched fds => exact counted_restart h hcounted hs
  | coldRestart fds => exact counted_coldRestart h hcounted hs

/-- **The descriptors do not run out.** Started with descriptors that are listed once each, among
them 0 and the external pipes, in every sequence of restarts: as many are open as behind the start,
and all are below each bound that they were below then. -/
theorem keeps_descriptors {h : Host} {fds : ℕ → List ℕ} (h0 : 0 ∈ h.voter.fds)
    (hext : ∀ p < c.pipeCount, (c.extPipes p).fdIn ∈ h.voter.fds)
    (hfree : ∀ r < c.repCount, ∀ p < c.pipeCount,
      ¬ (h.voter.plumbing r).Holds (c.extPipes p).fdIn)
    (hnodup : h.voter.fds.Nodup) (hs : s ∈ startReplicas c h fds)
    (hreach : Reaches (step c) (fun _ _ => True) s s') :
    s'.voter.fds.length = s.voter.fds.length ∧
      ∀ b, (∀ fd ∈ s.voter.fds, fd < b) → ∀ fd ∈ s'.voter.fds, fd < b := by
  have hcounted : ∀ b, (∀ fd ∈ s.voter.fds, fd < b) →
      Counted s.voter.fds.length b s'.voter.fds := by
    intro b hb
    have hstart : Inv c s ∧ Counted s.voter.fds.length b s.voter.fds :=
      ⟨inv_startReplicas h0 hext hfree hs, nodup_startReplicas hnodup hs, rfl, hb⟩
    refine (hreach.invariant (I := fun s' => Inv c s' ∧ Counted s.voter.fds.length b s'.voter.fds)
      hstart fun t a t' ht _ ht' => ?_).2
    exact ⟨inv_step ht.1 ht', counted_step ht.1 ht.2 ht'⟩
  obtain ⟨b, hb⟩ : ∃ b, ∀ fd ∈ s.voter.fds, fd < b :=
    ⟨s.voter.fds.sum + 1, fun fd hfd => Nat.lt_succ_of_le (List.single_le_sum (by simp) fd hfd)⟩
  exact ⟨(hcounted b hb).length, fun b hb => (hcounted b hb).lt⟩

end Runs

/-- The descriptors stay below 20. -/
theorem keeps_descriptors_twoRestarts :
    rangerRestarted.voter.fds.length = rangerSystem.voter.fds.length ∧
      ∀ fd ∈ rangerRestarted.voter.fds, fd < 20 := by
  have hkeeps := keeps_descriptors (by decide) (by decide) rangerHost_free (by decide)
    (Option.get_mem _) reaches_rangerRestarted
  exact ⟨hkeeps.1, hkeeps.2 20 (by decide +kernel)⟩

end S3RES.Rewiring
