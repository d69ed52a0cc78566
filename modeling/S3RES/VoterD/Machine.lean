import S3RES.Foundations.StepSystem
import S3RES.VoterD.Model

/-!
# VoterD as a step system

`doOneUpdate` runs next to the replicas, the external components and the clock. One action
of the voter is a stretch of the function between two system calls on which it can wait or
between which others can act: up to the `select`, the `select` itself, the external read,
one round of the replica loop up to its `read`, and the vote on what was read. Between any
two of them the replicas write and read, external input arrives and time passes.

A restart is one action. What the parent writes during it before the fork is written before
the action, what it writes afterwards behind it: the voter reads no output in between.
-/

namespace S3RES.VoterD

open StepSystem

/-- The actions of the voter and of everything around it. `sched` says which calls of
`sched_set_policy` succeed, by call site and replica. -/
inductive Act
  /-- `doOneUpdate` up to the call of `select`. -/
  | update (sched : ℕ → ℕ → Bool)
  /-- `select` returns. -/
  | select
  /-- The loop over the external pipes. -/
  | external (sched : ℕ → ℕ → Bool)
  /-- One round of the replica loop, up to the vote. -/
  | scan
  /-- A blocked `read` returns. -/
  | wake
  /-- `balanceReps` and `checkSDC` in `processFromRep`. -/
  | vote (sched : ℕ → ℕ → Bool)
  /-- Replica `r` writes to its out pipe `p`. -/
  | replicaWrites (r p : ℕ) (bytes : List UInt8)
  /-- Replica `r` reads `n` bytes of its in pipe `p`. -/
  | replicaReads (r p n : ℕ)
  /-- Another component writes to the external end of in pipe `p`. -/
  | externalWrites (p : ℕ) (bytes : List UInt8)
  /-- The clock advances. -/
  | tick (d : ℕ)

/-- A descriptor of the voter is readable: it is the external end of a pipe or the voter's
end of a replica's pipe, and something is unread there. -/
def readable (c : Config) (s : State) (fd : ℕ) : Bool :=
  ((List.range c.pipeCount).any fun p => (c.extPipes p).fdIn = fd ∧ s.extIn p ≠ []) ||
    (List.range c.repCount).any fun r =>
      (List.range c.pipeCount).any fun p => (s.vot r p).fdIn = fd ∧ s.queue r p ≠ []

/-- The external ends in the set given to `select`. -/
def externalWatch (c : Config) (s : State) : List ℕ :=
  if checkSync c s ∧ s.timerStarted = false then
    ((List.range c.pipeCount).map fun p => (c.extPipes p).fdIn).filter (· ≠ 0)
  else []

/-- The replicas' ends in the set given to `select`. -/
def replicaWatch (c : Config) (s : State) : List ℕ :=
  ((List.range c.pipeCount).flatMap fun p =>
    (List.range c.repCount).map fun r => (s.vot r p).fdIn).filter (· ≠ 0)

/-- The rounds of the replica loop: pipe by pipe, every replica. -/
def rounds (c : Config) : List (ℕ × ℕ) :=
  (List.range c.pipeCount).flatMap fun p => (List.range c.repCount).map fun r => (p, r)

/-- The head of `doOneUpdate`: the timer check. -/
def checkTimer (c : Config) (s : State) (sched : ℕ → ℕ → Bool) : State :=
  if Expired c s then voterRestartHandler c s sched else s

/-- The external pipe whose data is read: the first one that is set. -/
def externalPipe (c : Config) (ready : List ℕ) : Option ℕ :=
  (List.range c.pipeCount).find? fun p => (c.extPipes p).fdIn ≠ 0 ∧ (c.extPipes p).fdIn ∈ ready

/-- Read one external pipe and hand its data on. -/
def readExternal (c : Config) (s : State) (p : ℕ) (sched : ℕ → ℕ → Bool) : State :=
  let chunk := (s.extIn p).take maxVotePipeBuff
  let s := { s with
    extIn := Function.update s.extIn p ((s.extIn p).drop maxVotePipeBuff)
    extData := Function.update s.extData p chunk }
  if chunk = [] then s else processData c s p (sched 0)

/-- The `read` and `pipeToBuff` of `processFromRep`; a vote follows if the bytes were
stored. -/
def readReplica (s : State) (p r : ℕ) (ready : List ℕ) (todo : List (ℕ × ℕ)) : State :=
  let chunk := (s.queue r p).take maxVotePipeBuff
  let s := s.setQueue r p ((s.queue r p).drop maxVotePipeBuff)
  let stored := pipeToBuff (s.vot r p) chunk
  let s := s.setVot r p stored.2
  if stored.1 = 0 then
    { s with point := .vote p ready todo, log := .taken r p chunk :: s.log }
  else
    { s with point := .scan ready todo }

/-- `FD_ISSET` for the pipe of one round. -/
def IsSet (s : State) (ready : List ℕ) (p r : ℕ) : Prop :=
  (s.vot r p).fdIn ≠ 0 ∧ (s.vot r p).fdIn ∈ ready

instance (s : State) (ready : List ℕ) (p r : ℕ) : Decidable (IsSet s ready p r) :=
  inferInstanceAs (Decidable (_ ∧ _))

/-- The step function. -/
def step (c : Config) (s : State) : Act → Option State
  | .update sched =>
    match s.point with
    | .update =>
      let s := checkTimer c s sched
      some { s with point := .waiting (externalWatch c s ++ replicaWatch c s) }
    | _ => none
  | .select =>
    match s.point with
    | .waiting watch =>
      let ready := watch.filter (readable c s)
      if ready = [] then some { s with point := .update }
      else some { s with point := .external ready, log := .selected :: s.log }
    | _ => none
  | .external sched =>
    match s.point with
    | .external ready =>
      let s := match externalPipe c ready with
        | some p => readExternal c s p sched
        | none => s
      some { s with point := .scan ready (rounds c) }
    | _ => none
  | .scan =>
    match s.point with
    | .scan _ [] => some { s with point := .update }
    | .scan ready ((p, r) :: todo) =>
      if IsSet s ready p r then
        let s := startTimer c.timerStopIndex s p
        if s.queue r p = [] then some { s with point := .blocked p r ready todo }
        else some (readReplica s p r ready todo)
      else some { s with point := .scan ready todo }
    | _ => none
  | .wake =>
    match s.point with
    | .blocked p r ready todo =>
      if s.queue r p = [] then none else some (readReplica s p r ready todo)
    | _ => none
  | .vote sched =>
    match s.point with
    | .vote p ready todo =>
      let s := checkSDC c (balance c s (sched 0)) p sched
      some { s with point := .scan ready todo }
    | _ => none
  | .replicaWrites r p bytes =>
    if r < c.repCount ∧ p < c.pipeCount ∧ c.IsOut p ∧ bytes ≠ [] then
      some { s.setQueue r p (s.queue r p ++ bytes) with
        procs := Function.update s.procs r
          { s.procs r with
            written := Function.update (s.procs r).written p
              ((s.procs r).written p ++ bytes) } }
    else none
  | .replicaReads r p n =>
    if r < c.repCount ∧ p < c.pipeCount ∧ ¬ c.IsOut p then
      some (s.setQueue r p ((s.queue r p).drop n))
    else none
  | .externalWrites p bytes =>
    if p < c.pipeCount ∧ ¬ c.IsOut p then
      some { s with extIn := Function.update s.extIn p (s.extIn p ++ bytes) }
    else none
  | .tick d => some { s with now := s.now + d }

end S3RES.VoterD
