import S3RES.VoterD.Startup

/-!
# What the functions leave of a record

Most functions of VoterD change the vote pipes and the priority of a replica and nothing else of
its record, and only `processData` and `processFromRep` choose another timer. This is said once
here, for any field of the record that looks at neither.
-/

namespace S3RES.VoterD

open Loop Memory

variable {β : Type*} {π : Replica → β} {c : Config} {s : State}

/-- The field looks neither at the vote pipes nor at the priority. -/
structure Untouched (π : Replica → β) : Prop where
  votPipes : ∀ rep vots, π { rep with votPipes := vots } = π rep
  priority : ∀ rep priority, π { rep with priority := priority } = π rep

/-- The field in the record of each replica, and the timer that ran last. -/
def State.shape (π : Replica → β) (s : State) : (ℕ → β) × ℕ :=
  (fun r => π (s.replicas r), s.currentTimer)

theorem Untouched.pinnedCpu : Untouched Replica.pinnedCpu := ⟨fun _ _ => rfl, fun _ _ => rfl⟩

theorem Untouched.pipeCount : Untouched Replica.pipeCount := ⟨fun _ _ => rfl, fun _ _ => rfl⟩

theorem shape_setVot (h : Untouched π) (s : State) (r p : ℕ) (pipe : VotePipe) :
    (s.setVot r p pipe).shape π = s.shape π := by
  refine Prod.ext (funext fun r' => ?_) rfl
  simp only [State.shape, State.setVot]
  rcases eq_or_ne r' r with rfl | hr
  · rw [Function.update_self]
    exact h.votPipes _ _
  · rw [Function.update_of_ne hr]

theorem shape_setQueue (π : Replica → β) (s : State) (r p : ℕ) (bytes : List UInt8) :
    (s.setQueue r p bytes).shape π = s.shape π := rfl

theorem shape_balance (h : Untouched π) (c : Config) (s : State) (sched : ℕ → Bool) :
    (balance c s sched).shape π = s.shape π :=
  Prod.ext (funext fun _ => balanceReps_proj π h.priority ..) rfl

theorem shape_writeBuffer (π : Replica → β) (s : State) (r p : ℕ) (bytes : List UInt8) :
    (writeBuffer s r p bytes).shape π = s.shape π := rfl

/-- `processData` can only start a timer. -/
theorem shape_processData (h : Untouched π) (c : Config) (s : State) (p : ℕ) (sched : ℕ → Bool) :
    (processData c s p sched).shape π = (startTimer c.timerStartIndex s p).shape π := by
  have hloop : (loop (fun r s => writeBuffer s r p (s.extData p)) c.repCount
      (balance c (startTimer c.timerStartIndex s p) sched)).shape π =
        (startTimer c.timerStartIndex s p).shape π := by
    rw [loop_proj (State.shape π) (fun r s => shape_writeBuffer π s r p (s.extData p)),
      shape_balance h]
  simp only [processData]
  split
  · exact hloop
  · exact hloop

theorem shape_sendPipe (h : Untouched π) (c : Config) (s : State) (p u : ℕ) :
    (sendPipe c s p u).shape π = s.shape π := by
  have hstop : (stopTimer c s p).shape π = s.shape π := by
    rw [stopTimer]
    split <;> rfl
  simp only [sendPipe]
  split
  · rfl
  · rw [loop_proj (State.shape π) (fun r t => ?_), hstop]
    simp only [sendRound]
    split
    · exact shape_setVot h ..
    · exact shape_setVot h ..

theorem shape_copyAndSend (h : Untouched π) (c : Config) (v u i : ℕ) (s : State) :
    (copyAndSend c v u i s).shape π = s.shape π := by
  rw [copyAndSend]
  split
  · rw [shape_sendPipe h, shape_setVot h]
  · rfl

theorem shape_stealPipes (π : Replica → β) (s : State) (rep : ℕ) :
    (stealPipes s rep).shape π = s.shape π :=
  loop_proj (State.shape π) (fun i s => shape_setQueue π s rep i _) ..

theorem shape_returnPipes (π : Replica → β) (s : State) (rep : ℕ) (buffer : ℕ → List UInt8) :
    (returnPipes s rep buffer).shape π = s.shape π := by
  refine loop_proj (State.shape π) (fun i t => ?_) ..
  split
  · rfl
  · rfl

theorem shape_touchPipes (h : Untouched π) (c : Config) (s : State) :
    (touchPipes c s).shape π = s.shape π := by
  refine loop_proj (State.shape π) (fun r s => loop_proj (State.shape π) (fun p t => ?_) ..) ..
  split
  · rw [shape_setVot h]
  · rfl

theorem shape_readReplica (h : Untouched π) (s : State) (p r : ℕ) (ready : List ℕ)
    (todo : List (ℕ × ℕ)) : (readReplica s p r ready todo).shape π = s.shape π := by
  simp only [readReplica]
  split
  · exact shape_setVot h ..
  · exact shape_setVot h ..

/-- Reading external data leaves the records alone. -/
theorem shape_readExternal (h : Untouched π) (c : Config) (s : State) (p : ℕ)
    (sched : ℕ → ℕ → Bool) : (readExternal c s p sched).shape π = s.shape π ∨
      (readExternal c s p sched).shape π = (startTimer c.timerStartIndex s p).shape π := by
  simp only [readExternal]
  split
  · exact .inl rfl
  · right
    rw [shape_processData h]
    simp only [startTimer]
    split_ifs <;> rfl

/-- Filling one slot leaves the others alone. -/
theorem shape_newPipes_reinit (c : Config) (s : State) (v n index : ℕ) :
    (newPipes c (reinit c s v index) v n).shape π = (Function.update (s.shape π).1 v
      (π ((newPipes c (reinit c s v index) v n).replicas v)), s.currentTimer) := by
  refine Prod.ext (funext fun r => ?_) rfl
  simp only [State.shape]
  rcases eq_or_ne r v with rfl | hr
  · rw [Function.update_self]
  · rw [Function.update_of_ne hr]
    simp only [newPipes, reinit, Function.update_of_ne hr]

theorem shape_favour (h : Untouched π) (c : Config) (s : State) (u v : ℕ) (sched : ℕ → Bool) :
    { s with replicas := favour c u v sched s.replicas }.shape π = s.shape π :=
  Prod.ext (funext fun _ => favour_proj π h.priority ..) rfl

end S3RES.VoterD
