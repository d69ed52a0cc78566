import S3RES.Voter.Clock
import S3RES.Voter.Replicas

/-!
# VoterD

`voter/voterd.c`. What `parseArgs` fixes once is `Config`; the globals the program goes on
changing are fields of `State`, next to what the kernel holds for it: the bytes under way in
each pipe, the open descriptors and the clock. A replica process is known by the bytes it has
written so far; a process forked on `RESTART_SIGNAL` starts from the record of its parent.

`State.log` is not part of the program: it records what happened, latest first, for
statements about runs.
-/

namespace S3RES.VoterD

open Loop Memory

/-- What `parseArgs` and `initVoterD` set once. The buffers of `extPipes` are not used, see
`State.extData`. -/
structure Config where
  votingTimeout : ℤ
  repType : ReplicationT
  pipeCount : ℕ
  extPipes : ℕ → VotePipe
  timerStartIndex : ℕ → ℕ
  timerStopIndex : ℕ → ℕ
  replicaPriority : ℤ

/-- `rep_count`. -/
def Config.repCount (c : Config) : ℕ := reptypeToCount c.repType

/-- Pipe `p` carries output of the replicas: its external end is not read. -/
def Config.IsOut (c : Config) (p : ℕ) : Prop := (c.extPipes p).fdIn = 0

instance (c : Config) (p : ℕ) : Decidable (c.IsOut p) :=
  inferInstanceAs (Decidable (_ = _))

/-- A replica process: whether it is the faulty one, and the bytes it, or the process it was
forked from, has written to each out pipe. -/
structure Process where
  faulty : Bool
  written : ℕ → List UInt8

/-- What happened, for statements about runs. -/
inductive Event
  /-- Input was written to the replicas on pipe `p`. -/
  | delivered (p now : ℕ)
  /-- Output was written to the external end of pipe `p`. -/
  | forwarded (p : ℕ)
  /-- `bytes` were read from replica `r` on pipe `p` and stored. -/
  | taken (r p : ℕ) (bytes : List UInt8)
  /-- The process of slot `r` was started or forked. -/
  | started (r now : ℕ)
  /-- `select` returned with something to read. -/
  | selected
  deriving DecidableEq

/-- The event puts a new process into slot `r`. -/
def Event.starts (r : ℕ) : Event → Bool
  | .started r' _ => r' = r
  | _ => false

/-- The event is a delivery of input of pipe `p`. -/
def Event.delivers (p : ℕ) : Event → Bool
  | .delivered p' _ => p' = p
  | _ => false

/-- When a replica was started or input delivered. -/
def Event.time : Event → Option ℕ
  | .started _ now => some now
  | .delivered _ now => some now
  | _ => none

/-- Where `doOneUpdate` stands. The replica loop is represented by the rounds it has left. -/
inductive Point
  /-- At the head of `doOneUpdate`. -/
  | update
  /-- In `select`, over these descriptors. -/
  | waiting (watch : List ℕ)
  /-- Before the loop over the external pipes, with the result of `select`. -/
  | external (ready : List ℕ)
  /-- In the replica loop. -/
  | scan (ready : List ℕ) (todo : List (ℕ × ℕ))
  /-- In a `read` on an empty pipe. -/
  | blocked (p r : ℕ) (ready : List ℕ) (todo : List (ℕ × ℕ))
  /-- In `processFromRep`, after a successful `pipeToBuff`. -/
  | vote (p : ℕ) (ready : List ℕ) (todo : List (ℕ × ℕ))
  deriving DecidableEq

structure State where
  point : Point
  timerStarted : Bool
  currentTimer : ℕ
  watchdog : ℕ
  replicas : ℕ → Replica
  /-- `ext_pipes[p].buffer`, up to `buff_count`. -/
  extData : ℕ → List UInt8
  fds : List ℕ
  /-- The unread bytes of replica `r`'s pipe `p`, in either direction. -/
  queue : ℕ → ℕ → List UInt8
  /-- The unread bytes at `ext_pipes[p].fd_in`. -/
  extIn : ℕ → List UInt8
  /-- The bytes written to `ext_pipes[p].fd_out`. -/
  extOut : ℕ → List UInt8
  now : ℕ
  procs : ℕ → Process
  log : List Event

/-- Vote pipe `p` of replica `r`. -/
def State.vot (s : State) (r p : ℕ) : VotePipe := (s.replicas r).votPipes p

/-- Replace vote pipe `p` of replica `r`. -/
def State.setVot (s : State) (r p : ℕ) (pipe : VotePipe) : State :=
  { s with replicas := Function.update s.replicas r ((s.replicas r).setVot p pipe) }

/-- Replace the unread bytes of replica `r`'s pipe `p`. -/
def State.setQueue (s : State) (r p : ℕ) (bytes : List UInt8) : State :=
  { s with queue := Function.update s.queue r (Function.update (s.queue r) p bytes) }

/-! ### Time -/

/-- `remaining` in `doOneUpdate`. -/
def remaining (c : Config) (s : State) : ℤ :=
  truncate (c.votingTimeout - diffTime s.now s.watchdog)

/-- The timer has run out. -/
def Expired (c : Config) (s : State) : Prop := s.timerStarted = true ∧ ¬ remaining c s > 0

instance (c : Config) (s : State) : Decidable (Expired c s) :=
  inferInstanceAs (Decidable (_ ∧ _))

/-! ### Input and output -/

/-- `write(replicas[r].vot_pipes[p].fd_out, bytes)`. -/
def writeBuffer (s : State) (r p : ℕ) (bytes : List UInt8) : State :=
  s.setQueue r p (s.queue r p ++ bytes)

/-- Start the timer of the pair whose index in `timerIndex` is `p`, if none is running. -/
def startTimer (timerIndex : ℕ → ℕ) (s : State) (p : ℕ) : State :=
  if s.timerStarted then s
  else if p = timerIndex 0 then
    { s with currentTimer := 0, timerStarted := true, watchdog := s.now }
  else if p = timerIndex 1 then
    { s with currentTimer := 1, timerStarted := true, watchdog := s.now }
  else s

/-- `balanceReps(replicas, rep_count, replica_priority)`. -/
def balance (c : Config) (s : State) (sched : ℕ → Bool) : State :=
  { s with replicas := balanceReps s.replicas c.repCount c.replicaPriority sched }

/-- Hand the data of external pipe `p` to every replica. -/
def processData (c : Config) (s : State) (p : ℕ) (sched : ℕ → Bool) : State :=
  let s := balance c (startTimer c.timerStartIndex s p) sched
  let s := loop (fun r s => writeBuffer s r p (s.extData p)) c.repCount s
  if s.extData p = [] then s else { s with log := .delivered p s.now :: s.log }

/-- Reset the timer if `pipeNum` is the out pipe of a timed pair. -/
def stopTimer (c : Config) (s : State) (pipeNum : ℕ) : State :=
  if pipeNum = c.timerStopIndex 0 ∨ pipeNum = c.timerStopIndex 1 then
    { s with timerStarted := false }
  else s

/-- One round of `sendPipe`: write out the bytes of the sender, skip those of the others. -/
def sendRound (pipeNum replicaNum bytesAvail r : ℕ) (s : State) : State :=
  if replicaNum = r then
    let written := buffToPipe (s.vot r pipeNum) bytesAvail
    { s.setVot r pipeNum written.2.2 with
      extOut := Function.update s.extOut pipeNum (s.extOut pipeNum ++ written.2.1)
      log := .forwarded pipeNum :: s.log }
  else s.setVot r pipeNum (fakeToPipe (s.vot r pipeNum) bytesAvail)

/-- Forward what every replica has on a pipe, taking the bytes of one of them. -/
def sendPipe (c : Config) (s : State) (pipeNum replicaNum : ℕ) : State :=
  let bytesAvail := bytesReady s.replicas c.repCount pipeNum
  if bytesAvail = 0 then s
  else loop (sendRound pipeNum replicaNum bytesAvail) c.repCount (stopTimer c s pipeNum)

/-! ### Restarts -/

/-- What `stealPipes` takes from a replica's in pipe: one `read` of the voter's copy of the
read end. -/
def stolen (s : State) (rep i : ℕ) : List UInt8 :=
  if (s.replicas rep).voterRepInCopy i ≠ 0 then (s.queue rep i).take maxVotePipeBuff else []

/-- Take the pending input of a replica. -/
def stealPipes (s : State) (rep : ℕ) : State :=
  loop (fun i s => s.setQueue rep i ((s.queue rep i).drop (stolen s rep i).length))
    (s.replicas rep).pipeCount s

/-- Put stolen input back, behind whatever arrived since. -/
def returnPipes (s : State) (rep : ℕ) (buffer : ℕ → List UInt8) : State :=
  loop (fun i s => if (buffer i).length > 0 then writeBuffer s rep i (buffer i) else s)
    (s.replicas rep).pipeCount s

/-- Fresh pipes for slot `rep`: nothing is unread in them. -/
def newPipes (c : Config) (s : State) (rep pipeCount : ℕ) : State :=
  let r := createPipes c.extPipes pipeCount (s.replicas rep) s.fds
  { s with
    replicas := Function.update s.replicas rep r.1
    fds := r.2
    queue := Function.update s.queue rep fun p => if p < pipeCount then [] else s.queue rep p }

/-- `initReplicas` for slot `rep`, which it numbers `index`. -/
def reinit (c : Config) (s : State) (rep index : ℕ) : State :=
  let r := initReplica (s.replicas rep) index c.replicaPriority s.fds
  { s with replicas := Function.update s.replicas rep r.1, fds := r.2 }

/-- The priority loop of `restartReplica`: the parent becomes the most special replica. -/
def favour (c : Config) (restarter restartee : ℕ) (sched : ℕ → Bool) (reps : ℕ → Replica) :
    ℕ → Replica :=
  loop (fun i reps =>
    if i ≠ restartee ∧ sched i then
      Function.update reps i
        { reps i with
          priority := if i = restarter then c.replicaPriority + 2 else c.replicaPriority }
    else reps) c.repCount reps

/-- Kill slot `restartee` and fill it with a fork of the process in slot `restarter`. -/
def restartReplica (c : Config) (s : State) (restarter restartee : ℕ)
    (sched : ℕ → ℕ → Bool) : State :=
  let s := { s with fds := cleanupReplica (s.replicas restartee) s.fds }
  let s := { s with replicas := favour c restarter restartee (sched 1) s.replicas }
  let s := reinit c s restartee 0
  let s := newPipes c s restartee (s.replicas restarter).pipeCount
  let s := { s with
    procs := Function.update s.procs restartee (s.procs restarter)
    log := .started restartee s.now :: s.log }
  balance c s (sched 2)

/-- Copy the parent's vote pipe `i` to its fork and forward what all replicas have. -/
def copyAndSend (c : Config) (restartee restarter i : ℕ) (s : State) : State :=
  if (s.vot restarter i).fdIn ≠ 0 then
    sendPipe c (s.setVot restartee i (copyPipe (s.vot restartee i) (s.vot restarter i))) i
      restarter
  else s

/-- Restart one replica from another. -/
def restartPrep (c : Config) (s : State) (restartee restarter : ℕ)
    (sched : ℕ → ℕ → Bool) : State :=
  let buffer := fun i => if i < (s.replicas restarter).pipeCount then stolen s restarter i else []
  let s := stealPipes s restarter
  let s := { s with timerStarted := false }
  let s := restartReplica c s restarter restartee sched
  let s := loop (copyAndSend c restartee restarter) c.pipeCount s
  returnPipes (returnPipes s restartee buffer) restarter buffer

/-- `startReplicas`: every slot gets fresh pipes and a process started from its program. -/
def startReplicas (c : Config) (s : State) : State :=
  let s := loop (fun r s => reinit c s r r) c.repCount s
  let s := loop (fun r s => newPipes c s r c.pipeCount) c.repCount s
  loop (fun r s =>
    { s with
      procs := Function.update s.procs r ⟨false, fun _ => []⟩
      log := .started r s.now :: s.log }) c.repCount s

/-- The timer went off. -/
def voterRestartHandler (c : Config) (s : State) (sched : ℕ → ℕ → Bool) : State :=
  match c.repType with
  | .smr =>
    -- Need to cold restart the replica
    let s := startReplicas c { s with fds := cleanupReplica (s.replicas 0) s.fds }
    -- Resend last data
    loop (fun p s => if (c.extPipes p).fdIn ≠ 0 then processData c s p (sched 0) else s)
      c.pipeCount s
  | .dmr | .tmr =>
    -- The failed rep should be the one behind on the timer pipe
    let restartee := behindRep s.replicas c.repCount (c.timerStopIndex s.currentTimer)
    let restarter := (restartee + (c.repCount - 1)) % c.repCount
    restartPrep c s restartee restarter sched
  | _ => s

/-! ### Voting -/

/-- The round of the TMR loop at `rIndex`: whether it finds two replicas that agree, and
the state afterwards. -/
def checkTmr (c : Config) (s : State) (pipeNum bytesAvail rIndex : ℕ)
    (sched : ℕ → ℕ → Bool) : Option State :=
  if compareBuffs (s.vot rIndex pipeNum) (s.vot ((rIndex + 1) % c.repCount) pipeNum)
      bytesAvail = 0 then
    -- If the third doesn't agree, it should be restarted.
    if compareBuffs (s.vot rIndex pipeNum) (s.vot ((rIndex + 2) % c.repCount) pipeNum)
        bytesAvail ≠ 0 then
      some (restartPrep c s ((rIndex + 2) % c.repCount) rIndex sched)
    else
      some (sendPipe c s pipeNum rIndex)
  else
    none

/-- Vote on what every replica has on a pipe. -/
def checkSDC (c : Config) (s : State) (pipeNum : ℕ) (sched : ℕ → ℕ → Bool) : State :=
  let bytesAvail := bytesReady s.replicas c.repCount pipeNum
  if bytesAvail = 0 then s
  else
    match c.repType with
    | .smr => sendPipe c s pipeNum 0
    | .dmr => sendPipe c s pipeNum 0 -- can detect, but not tell which one is wrong
    | .tmr =>
      ((List.range c.repCount).findSome? fun rIndex =>
        checkTmr c s pipeNum bytesAvail rIndex sched).getD s
    | _ => s

/-- Each replica has the same number of votes on each pipe. -/
def checkSync (c : Config) (s : State) : Bool :=
  (List.range c.pipeCount).all fun p =>
    (List.range c.repCount).all fun r => (s.vot 0 p).buffCount = (s.vot r p).buffCount

end S3RES.VoterD
