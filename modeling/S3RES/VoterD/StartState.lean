import S3RES.VoterD.Startup

/-!
# What start-up leaves in the vote pipes

`initReplicas` resets the pipes of a slot that was in use, the loop at the end of `initVoterD`
clears the counts of the pipes that are read, and nothing else sets `buff_count` or
`buff_index`. `startState_iff`: the vote pipes are empty and in step after start-up if and only
if the memory they were given already was, as far as no code has touched it.

The numbers found in memory are read as unsigned.
-/

namespace S3RES.VoterD

open Loop Memory

variable {c : Config} {s : State} {p r : ℕ}

/-- The vote pipes are empty and in step, and `checkSync` says so. -/
structure StartState (c : Config) (s : State) : Prop where
  count : ∀ r < c.repCount, ∀ p < c.pipeCount, (s.vot r p).buffCount = 0
  index : ∀ r < c.repCount, ∀ p < c.pipeCount,
    (s.vot r p).buffIndex < maxVotePipeBuff ∧ (s.vot r p).buffIndex = (s.vot 0 p).buffIndex
  sync : checkSync c s = true

/-- What the memory of the vote pipes has to hold: start indices that can be used and are the
same for all replicas, and no count where a pipe leads to the replica. -/
structure FreshMemory (c : Config) (vots : ℕ → ℕ → VotePipe) : Prop where
  count : ∀ r < c.repCount, ∀ p < c.pipeCount, ¬ c.IsOut p → (vots r p).buffCount = 0
  index : ∀ r < c.repCount, ∀ p < c.pipeCount,
    (vots r p).buffIndex < maxVotePipeBuff ∧ (vots r p).buffIndex = (vots 0 p).buffIndex

/-- Replicas without votes are in step. -/
theorem checkSync_of_count
    (h : ∀ r < c.repCount, ∀ p < c.pipeCount, (s.vot r p).buffCount = 0) :
    checkSync c s = true := by
  simp only [checkSync, List.all_eq_true, List.mem_range, decide_eq_true_eq]
  intro p hp r hr
  rw [h r hr p hp, h 0 (by omega) p hp]

/-- A pipe the voter does not read keeps its count. -/
theorem count_touchPipes (hfd : (s.vot r p).fdIn = 0) :
    ((touchPipes c s).vot r p).buffCount = (s.vot r p).buffCount := by
  have houter := loop_induction (n := c.repCount) (s := s)
    (f := fun r s => loop (fun p s =>
      if (s.vot r p).fdIn ≠ 0 then s.setVot r p { s.vot r p with buffCount := 0 } else s)
      (s.replicas r).pipeCount s)
    (fun _ t => t.vot r p = s.vot r p) rfl ?_
  · rw [touchPipes, houter]
  · intro k _ t ht
    refine loop_induction (fun _ (u : State) => u.vot r p = s.vot r p) ht fun q _ u hu => ?_
    dsimp only
    split
    · rename_i hset
      rw [vot_setVot, if_neg, hu]
      rintro ⟨rfl, rfl⟩
      exact hset (hu ▸ hfd)
    · exact hu

/-- What `initVoterD` makes of the memory of the vote pipes. -/
theorem startState_initVoterD {vots : ℕ → ℕ → VotePipe} {fds : List ℕ} (now : ℕ) (h0 : 0 ∈ fds)
    (hext : ∀ p < c.pipeCount, (c.extPipes p).fdIn ∈ fds) :
    StartState c (initVoterD c (boot vots fds now)) ↔ FreshMemory c vots := by
  have hstarted := restarted_startReplicas (c := c) (s := boot vots fds now) h0 hext
    fun r _ p _ hheld => by
      obtain ⟨-, i, hi, -⟩ := hheld
      exact i.not_lt_zero hi
  have htouched := touched_touchPipes c (startReplicas c (boot vots fds now))
  have hindex : ∀ r < c.repCount, ∀ p,
      ((initVoterD c (boot vots fds now)).vot r p).buffIndex = (vots r p).buffIndex := by
    intro r hr p
    exact (htouched.index r p).trans ((hstarted.index r hr p).trans (if_neg p.not_lt_zero))
  have hout : ∀ r < c.repCount, ∀ p < c.pipeCount, c.IsOut p →
      ((initVoterD c (boot vots fds now)).vot r p).buffCount = 0 := fun r hr p hp hout =>
    htouched.count r hr p (by rw [hstarted.plumbed.pipeCount hr]; exact hp)
      ((hstarted.plumbed.fdIn_ne_zero_iff hr hp).mpr hout)
  have hin : ∀ r < c.repCount, ∀ p < c.pipeCount, ¬ c.IsOut p →
      ((initVoterD c (boot vots fds now)).vot r p).buffCount = (vots r p).buffCount := by
    intro r hr p hp hin
    have hfd : ((startReplicas c (boot vots fds now)).vot r p).fdIn = 0 :=
      not_not.mp fun hne => hin ((hstarted.plumbed.fdIn_ne_zero_iff hr hp).mp hne)
    exact (count_touchPipes hfd).trans ((hstarted.count r hr p).trans (if_neg p.not_lt_zero))
  constructor
  · intro h
    refine ⟨fun r hr p hp hnot => ?_, fun r hr p hp => ?_⟩
    · rw [← hin r hr p hp hnot]
      exact h.count r hr p hp
    · rw [← hindex r hr p, ← hindex 0 (by omega) p]
      exact h.index r hr p hp
  · intro h
    have hcount : ∀ r < c.repCount, ∀ p < c.pipeCount,
        ((initVoterD c (boot vots fds now)).vot r p).buffCount = 0 := by
      intro r hr p hp
      by_cases hdir : c.IsOut p
      · exact hout r hr p hp hdir
      · rw [hin r hr p hp hdir]
        exact h.count r hr p hp hdir
    refine ⟨hcount, fun r hr p hp => ?_, checkSync_of_count hcount⟩
    rw [hindex r hr p, hindex 0 (by omega) p]
    exact h.index r hr p hp

/-- The external pipes are those of the arguments. -/
theorem fdIn_parseArgs {type : String} {timeout priority : ℤ} {pipes : List PipeArg}
    {memory : ℕ → VotePipe} (hp : p < (parseArgs type timeout priority pipes memory).pipeCount) :
    ∃ arg ∈ pipes,
      ((parseArgs type timeout priority pipes memory).extPipes p).fdIn = arg.fdIn := by
  have hlt : p < pipes.length := hp.trans_le (min_le_left _ _)
  refine ⟨pipes[p], List.getElem_mem hlt, ?_⟩
  simp only [parseArgs, dif_pos hlt, parsePipe]

/-- **Start-up.** After `parseArgs` and `initVoterD` every vote pipe has count 0 and a start
index below 4096 that all replicas share, and `checkSync` holds, if and only if the memory
`malloc` gave was fresh. -/
theorem startState_iff (type : String) (timeout priority : ℤ) (pipes : List PipeArg)
    (memory : ℕ → VotePipe) (vots : ℕ → ℕ → VotePipe) {fds : List ℕ} (now : ℕ) (h0 : 0 ∈ fds)
    (hext : ∀ arg ∈ pipes, arg.fdIn ∈ fds) :
    StartState (parseArgs type timeout priority pipes memory)
        (initVoterD (parseArgs type timeout priority pipes memory) (boot vots fds now)) ↔
      FreshMemory (parseArgs type timeout priority pipes memory) vots := by
  refine startState_initVoterD now h0 fun p hp => ?_
  obtain ⟨arg, harg, hfd⟩ := fdIn_parseArgs hp
  rw [hfd]
  exact hext arg harg

/-- The pipes of ArtPot. -/
def artPotPipes : List PipeArg :=
  [⟨"RANGE_POSE_DATA", 3, 0, true⟩, ⟨"WAY_REQ", 0, 4, false⟩, ⟨"WAY_RES", 5, 0, false⟩,
    ⟨"MOV_CMD", 0, 6, true⟩]

/-- ArtPot under VoterD. -/
def artPotConfig : Config := parseArgs "TMR" 1200 30 artPotPipes fun _ => zeroPipe

theorem startState_zeroPipe : StartState artPotConfig
    (initVoterD artPotConfig (boot (fun _ _ => zeroPipe) (List.range 7) 0)) :=
  (startState_iff "TMR" 1200 30 artPotPipes (fun _ => zeroPipe) (fun _ _ => zeroPipe) 0 (by decide)
    (by decide)).mpr ⟨by decide +kernel, by decide +kernel⟩

/-- Memory in which replica 1 has a count on pipe 0 and a start index of 5000 on pipe 3. -/
def usedMemory (r p : ℕ) : VotePipe :=
  if r = 1 ∧ p = 0 then { zeroPipe with buffCount := 7 }
  else if r = 1 ∧ p = 3 then { zeroPipe with buffIndex := 5000 }
  else zeroPipe

/-- The count stays, so that `checkSync` fails, and the start index lies behind the buffer. -/
theorem not_startState_usedMemory :
    pipeLimit ≥ artPotPipes.length ∧ artPotConfig.repType = .tmr ∧
    ((initVoterD artPotConfig (boot usedMemory (List.range 7) 0)).vot 1 0).buffCount = 7 ∧
    ((initVoterD artPotConfig (boot usedMemory (List.range 7) 0)).vot 1 3).buffIndex = 5000 ∧
    checkSync artPotConfig (initVoterD artPotConfig (boot usedMemory (List.range 7) 0)) =
      false := by
  decide +kernel

end S3RES.VoterD
