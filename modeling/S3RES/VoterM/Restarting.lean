import S3RES.VoterM.Histories

/-!
# The input of a restarted replica

`startReplicas` gives a replica that is forked fresh pipes, and leaves those of the replica it
is forked from as they are. The fork has read what its parent had read, so it goes on from the
same input exactly if the parent had nothing left to read (`sameInput_startReplicas_iff`).
-/

namespace S3RES.VoterM

open StepSystem

variable {c : Config} {s : State}

/-- Replicas `u` and `v` have the same input left to read. -/
def SameInput (c : Config) (s : State) (u v : ℕ) : Prop :=
  ∀ p < c.inPipeCount, s.inQueue u p = s.inQueue v p

instance (c : Config) (s : State) (u v : ℕ) : Decidable (SameInput c s u v) :=
  inferInstanceAs (Decidable (∀ p < c.inPipeCount, _))

/-- The pipes of the slot are empty, and all others are as they were. -/
theorem inQueue_startReplicas_one (c : Config) (s : State) (forking : Bool) (f : ℕ) :
    (startReplicas c s forking f 1).inQueue = Function.update s.inQueue f fun _ => [] := rfl

/-- **A fork's input.** In DMR and TMR the restarted replica has the same input left to read as
the one it is forked from, if and only if that one has read all of its input. -/
theorem sameInput_startReplicas_iff (hcount : c.repCount = 2 ∨ c.repCount = 3)
    (hindex : s.faultIndex < c.repCount) :
    SameInput c (startReplicas c s false s.faultIndex 1) (sender c s) s.faultIndex ↔
      ∀ p < c.inPipeCount, s.inQueue (sender c s) p = [] := by
  have hne : sender c s ≠ s.faultIndex := (sender_spec (by omega) hindex).2
  have hparent : (startReplicas c s false s.faultIndex 1).inQueue (sender c s) =
      s.inQueue (sender c s) := by
    rw [inQueue_startReplicas_one, Function.update_of_ne hne]
  have hfork : (startReplicas c s false s.faultIndex 1).inQueue s.faultIndex = fun _ => [] := by
    rw [inQueue_startReplicas_one, Function.update_self]
  rw [SameInput, hparent, hfork]

/-- Mapper under VoterM: it answers range data whether or not it has read the ack. -/
def mapperConfig : Config :=
  parseArgs "DMR" 8000 20
    [⟨"RANGE_POSE_DATA", 3, 0, 1⟩, ⟨"MAP_UPDATE", 0, 4, 1⟩, ⟨"COMM_ACK", 5, 0, 0⟩]

/-- Range data is read and answered, by replica 0 with another map than by replica 1. -/
def mapRound : List Act :=
  [Act.externalWrites 0 [1]] ++ QuadCore.voterSteps 3 ++
    [Act.replicaReads 0 0 1, .replicaReads 1 0 1, .replicaWrites 0 0 [5], .replicaWrites 1 0 [6]] ++
    QuadCore.voterSteps 4

/-- An ack has come in before. -/
def ackAndMapRound : List Act := [Act.externalWrites 1 [9]] ++ QuadCore.voterSteps 3 ++ mapRound

/-- The state in which `checkSDC` has killed a replica. -/
def killedIn (acts : List Act) : State :=
  (checkSDC mapperConfig
    (follow (QuadCore.step mapperConfig) acts (QuadCore.start mapperConfig)).toState).2

theorem sameInput_mapRound :
    SameInput mapperConfig (startReplicas mapperConfig (killedIn mapRound) false 0 1) 1 0 := by
  have hindex : (killedIn mapRound).faultIndex = 0 := by decide +kernel
  have hsender : sender mapperConfig (killedIn mapRound) = 1 := by decide +kernel
  have hiff := sameInput_startReplicas_iff (c := mapperConfig) (s := killedIn mapRound)
    (.inl (by decide)) (by decide +kernel)
  rw [hsender, hindex] at hiff
  exact hiff.mpr (by decide +kernel)

/-- The ack that replica 1 has yet to read is not there for the fork. -/
theorem not_sameInput_ackAndMapRound :
    Reaches (QuadCore.step mapperConfig) (fun _ _ => True) (QuadCore.start mapperConfig)
      (follow (QuadCore.step mapperConfig) ackAndMapRound (QuadCore.start mapperConfig)) ∧
    (killedIn ackAndMapRound).log = [.killed 0, .received 0, .received 1] ∧
    (killedIn ackAndMapRound).faultIndex = 0 ∧
    (startReplicas mapperConfig (killedIn ackAndMapRound) false 0 1).inQueue 1 1 = [9] ∧
    ¬ SameInput mapperConfig (startReplicas mapperConfig (killedIn ackAndMapRound) false 0 1) 1 0 :=
  ⟨reaches_follow (allSteps_true _ _) (by decide +kernel), by decide +kernel, by decide +kernel,
    by decide +kernel, by decide +kernel⟩

end S3RES.VoterM
