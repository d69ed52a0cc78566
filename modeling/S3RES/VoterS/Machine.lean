import S3RES.Foundations.StepSystem
import S3RES.Voter.Replicas

/-!
# VoterS

`voter/voters.c`: the voter that restarts a lone replica that has exited, next to the replica, the
other components and the kernel. The replica is one that writes a message and exits, as Load does.
`rep_count` is 1: VoterS knows of `SMR` only. One action of the voter is a stretch between two
system calls; a restart is one action up to the resending of input.

`State.written` is not part of the program: it records the messages that were written to each out
pipe, latest last.
-/

namespace S3RES.VoterS

open Loop StepSystem

/-- What `parseArgs` and `initVoterS` set once. -/
structure Config where
  pipeCount : ℕ
  extPipes : ℕ → VotePipe
  replicaPriority : ℤ

/-- Pipe `p` carries output of the replica: its external end is not read. -/
def Config.IsOut (c : Config) (p : ℕ) : Prop := p < c.pipeCount ∧ (c.extPipes p).fdIn = 0

instance (c : Config) (p : ℕ) : Decidable (c.IsOut p) := inferInstanceAs (Decidable (_ ∧ _))

/-- How far the replica process is. -/
inductive Process
  | started
  | written
  | exited
  deriving DecidableEq

/-- Where `doOneUpdate` stands. -/
inductive Point
  /-- Before `waitpid`. -/
  | check
  /-- In `voterRestartHandler`, with the external pipes whose last data is to be resent. -/
  | resend (todo : List ℕ)
  /-- In `select`. -/
  | waiting
  /-- In the loop over the external pipes, with what `select` has found. -/
  | external (todo ready : List ℕ)
  /-- In the loop over the pipes of the replica. -/
  | scan (todo : List ℕ)
  /-- In `processFromRep`, after a successful `pipeToBuff`. -/
  | vote (p : ℕ) (todo : List ℕ)
  deriving DecidableEq

structure State where
  point : Point
  replica : Replica
  fds : List ℕ
  /-- `ext_pipes[p].buffer`, up to `buff_count`. -/
  extData : ℕ → List UInt8
  /-- The unread bytes of the replica's pipe `p`, in either direction. -/
  queue : ℕ → List UInt8
  /-- The unread bytes at `ext_pipes[p].fd_in`. -/
  extIn : ℕ → List UInt8
  /-- The bytes written to `ext_pipes[p].fd_out`. -/
  extOut : ℕ → List UInt8
  process : Process
  written : ℕ → List (List UInt8)

/-- Vote pipe `p`. -/
def State.vot (s : State) (p : ℕ) : VotePipe := s.replica.votPipes p

/-! ### The functions of `voters.c` -/

/-- `startReplicas`, for the one slot there is. -/
def startReplicas (c : Config) (s : State) : State :=
  let r := initReplica s.replica 0 c.replicaPriority s.fds
  let r := createPipes c.extPipes c.pipeCount r.1 r.2
  { s with
    replica := r.1
    fds := r.2
    queue := fun p => if p < c.pipeCount then [] else s.queue p
    process := .started }

/-- `processData`. -/
def processData (s : State) (p : ℕ) : State :=
  { s with queue := Function.update s.queue p (s.queue p ++ s.extData p) }

/-- The external pipes that are read. -/
def externalIns (c : Config) : List ℕ :=
  (List.range c.pipeCount).filter fun p => (c.extPipes p).fdIn ≠ 0

/-- `voterRestartHandler`, up to the resending of the last data. -/
def voterRestartHandler (c : Config) (s : State) : State :=
  let s := startReplicas c { s with fds := cleanupReplica s.replica s.fds }
  { s with point := .resend (externalIns c) }

/-- `sendPipe(pipe_num, 0)`. -/
def sendPipe (s : State) (pipeNum : ℕ) : State :=
  let bytesAvail := bytesReady (fun _ => s.replica) 1 pipeNum
  if bytesAvail = 0 then s
  else
    let sent := buffToPipe (s.vot pipeNum) bytesAvail
    { s with
      replica := s.replica.setVot pipeNum sent.2.2
      extOut := Function.update s.extOut pipeNum (s.extOut pipeNum ++ sent.2.1) }

/-- `balanceReps`, which leaves a lone replica alone. -/
def balance (c : Config) (s : State) (sched : Bool) : State :=
  { s with replica := balanceReps (fun _ => s.replica) 1 c.replicaPriority (fun _ => sched) 0 }

/-- `select`: the external pipes with something to read. -/
def readyExternal (c : Config) (s : State) : List ℕ :=
  (externalIns c).filter fun p => s.extIn p ≠ []

/-- `select`: the pipes of the replica with something to read. -/
def readyReplica (c : Config) (s : State) : List ℕ :=
  (List.range c.pipeCount).filter fun p => (s.vot p).fdIn ≠ 0 ∧ s.queue p ≠ []

/-- External pipe `p` is read. -/
def readExternal (s : State) (p : ℕ) : State :=
  let chunk := (s.extIn p).take maxVotePipeBuff
  let s := { s with
    extData := Function.update s.extData p chunk
    extIn := Function.update s.extIn p ((s.extIn p).drop maxVotePipeBuff) }
  if chunk = [] then s else processData s p

/-- The `read` of `pipeToBuff`, and what it does with it. -/
def readReplica (s : State) (p : ℕ) : Bool × State :=
  let r := pipeToBuff (s.vot p) ((s.queue p).take maxVotePipeBuff)
  (r.1 = 0,
    { s with
      replica := s.replica.setVot p r.2
      queue := Function.update s.queue p ((s.queue p).drop maxVotePipeBuff) })

/-- `initVoterS`: the slot is started, and the counts of the pipes that are read are 0 bytes
read. -/
def initVoterS (c : Config) (s : State) : State :=
  let s := startReplicas c s
  { s with
    replica := loop (fun p rep =>
      if (rep.votPipes p).fdIn ≠ 0 then rep.setVot p { rep.votPipes p with buffCount := 0 }
      else rep) s.replica.pipeCount s.replica }

/-- The memory of the process before `initVoterS`. The slot is a global, so that it has no pipes;
its arrays are what `malloc` gave. -/
def boot (memory : Replica) (fds : List ℕ) : State where
  point := .check
  replica := { memory with pipeCount := 0 }
  fds := fds
  extData _ := []
  queue _ := []
  extIn _ := []
  extOut _ := []
  process := .started
  written _ := []

/-! ### Actions -/

inductive Act
  /-- The voter acts; `sched` says whether the calls of `sched_set_policy` succeed. -/
  | voter (sched : Bool)
  /-- The replica writes its message to out pipe `p`. -/
  | write (p : ℕ) (message : List UInt8)
  /-- The replica reads `n` bytes of its in pipe `p`. -/
  | readInput (p n : ℕ)
  /-- The replica exits. -/
  | exit
  /-- Another component writes to external pipe `p`. -/
  | externalWrite (p : ℕ) (bytes : List UInt8)

/-- The actions of the voter. -/
def doOneUpdate (c : Config) (s : State) (sched : Bool) : Option State :=
  match s.point with
  | .check =>
    some (if s.process = .exited then voterRestartHandler c s else { s with point := .waiting })
  | .resend [] => some { s with point := .waiting }
  | .resend (p :: todo) => some { processData s p with point := .resend todo }
  | .waiting =>
    some { s with
      point :=
        if readyExternal c s = [] ∧ readyReplica c s = [] then .check
        else .external (readyExternal c s) (readyReplica c s) }
  | .external [] ready => some { s with point := .scan ready }
  | .external (p :: todo) ready => some { readExternal s p with point := .external todo ready }
  | .scan [] => some { s with point := .check }
  | .scan (p :: todo) =>
    if s.queue p = [] then none
    else
      let r := readReplica s p
      some { r.2 with point := if r.1 then .vote p todo else .scan todo }
  | .vote p todo => some { sendPipe (balance c s sched) p with point := .scan todo }

/-- The step function. -/
def step (c : Config) (s : State) : Act → Option State
  | .voter sched => doOneUpdate c s sched
  | .write p message =>
    if c.IsOut p ∧ s.process = .started ∧ message ≠ [] ∧ message.length < maxVotePipeBuff then
      some { s with
        queue := Function.update s.queue p (s.queue p ++ message)
        process := .written
        written := Function.update s.written p (s.written p ++ [message]) }
    else none
  | .readInput p n =>
    if p < c.pipeCount ∧ ¬ c.IsOut p ∧ s.process ≠ .exited then
      some { s with queue := Function.update s.queue p ((s.queue p).drop n) }
    else none
  | .exit => if s.process ≠ .exited then some { s with process := .exited } else none
  | .externalWrite p bytes =>
    if p < c.pipeCount ∧ ¬ c.IsOut p then
      some { s with extIn := Function.update s.extIn p (s.extIn p ++ bytes) }
    else none

end S3RES.VoterS
