import S3RES.Foundations.Loop
import S3RES.Voter.Clock
import S3RES.Voter.VoteBuff

/-!
# VoterM

`voter/voterm.c`. What `parseArgs` sets once is `Config`; the globals the program goes on
changing are fields of `State`, next to what the kernel holds for it. A descriptor stands for
its pipe: a slot and a position among the in or the out pipes, or a position among the
external ones. The slot that `killAndClean` closes is filled again before the next `select`.

`State.log` and `Process.wrote` are not part of the program: they record what happened,
latest first, and what each process wrote since the last input, for statements about runs.
-/

namespace S3RES.VoterM

open Loop Memory

/-- `MAX_PIPE_BUFF` and `PERIOD_USEC`. -/
def maxPipeBuff : ℕ := 4096

def periodUsec : ℤ := 120

/-! ### Arguments -/

/-- One pipe argument, `rep_info:in:out:timed`, as the scanner has split it. -/
structure PipeArg where
  repInfo : String
  fdIn : ℕ
  fdOut : ℕ
  timed : ℕ

/-- What `parseArgs` fills from the pipe arguments. -/
structure Pipes where
  inPipeCount : ℕ
  extInFds : ℕ → ℕ
  repInfoIn : ℕ → String
  outPipeCount : ℕ
  extOutFds : ℕ → ℕ
  repInfoOut : ℕ → String
  indexedPipes : ℕ
  timerStartIndex : ℕ → ℕ
  timerStopIndex : ℕ → ℕ

/-- One round of the loop of `parseArgs` over the pipe arguments. -/
def parsePipe (t : Pipes) (arg : PipeArg) : Pipes :=
  if arg.fdIn ≠ 0 then
    { t with
      extInFds := Function.update t.extInFds t.inPipeCount arg.fdIn
      repInfoIn := Function.update t.repInfoIn t.inPipeCount arg.repInfo
      indexedPipes := if arg.timed ≠ 0 then t.indexedPipes + 1 else t.indexedPipes
      timerStartIndex :=
        if arg.timed ≠ 0 then Function.update t.timerStartIndex (arg.timed - 1) t.inPipeCount
        else t.timerStartIndex
      inPipeCount := t.inPipeCount + 1 }
  else
    { t with
      extOutFds := Function.update t.extOutFds t.outPipeCount arg.fdOut
      repInfoOut := Function.update t.repInfoOut t.outPipeCount arg.repInfo
      timerStopIndex :=
        if arg.timed ≠ 0 then Function.update t.timerStopIndex (arg.timed - 1) t.outPipeCount
        else t.timerStopIndex
      outPipeCount := t.outPipeCount + 1 }

/-- The pipe arguments of `parseArgs`. -/
def parsePipes (args : List PipeArg) : Pipes :=
  args.foldl parsePipe
    ⟨0, fun _ => 0, fun _ => "", 0, fun _ => 0, fun _ => "", 0, fun _ => 0, fun _ => 0⟩

/-- `rep_count`, from the first character of the replication type. -/
def parseRepCount (type : String) : ℕ :=
  match type.toList with
  | 'S' :: _ => 1
  | 'D' :: _ => 2
  | 'T' :: _ => 3
  | _ => 0

/-- What `parseArgs` sets once. -/
structure Config extends Pipes where
  repCount : ℕ
  votingTimeout : ℤ
  voterPriority : ℤ

/-- `parseArgs`. -/
def parseArgs (type : String) (timeout priority : ℤ) (args : List PipeArg) : Config where
  toPipes := parsePipes args
  repCount := parseRepCount type
  votingTimeout := if timeout = 0 then periodUsec else timeout
  voterPriority := priority

/-! ### State -/

/-- One replica slot, `struct replicaR`. -/
structure ReplicaR where
  priority : ℤ
  buffCounts : ℕ → ℕ
  buffers : ℕ → Mem UInt8

/-- A replica process: whether it is the faulty one, and the bytes it, or the process it was
forked from, wrote to each out pipe since the last input came in. -/
structure Process where
  faulty : Bool
  wrote : ℕ → List UInt8

/-- What happened, for statements about runs. -/
inductive Event
  /-- Input was read from external pipe `p`. -/
  | received (p : ℕ)
  /-- The process of slot `r` was killed. -/
  | killed (r : ℕ)
  /-- The output of slot `r` was sent out. -/
  | sent (r : ℕ)
  deriving DecidableEq

/-- Input was read. -/
def Event.isReceived : Event → Bool
  | .received _ => true
  | _ => false

structure State where
  activePipeIndex : ℕ
  /-- `ext_in_buffer`, up to `ext_in_bufcnt`. -/
  extInBuffer : List UInt8
  replicas : ℕ → ReplicaR
  timeoutOccurred : Bool
  faultIndex : ℕ
  watchdog : ℕ
  now : ℕ
  /-- The unread bytes of replica `r`'s in pipe `p`. -/
  inQueue : ℕ → ℕ → List UInt8
  /-- The unread bytes of replica `r`'s out pipe `p`. -/
  outQueue : ℕ → ℕ → List UInt8
  /-- The unread bytes of external in pipe `p`. -/
  extIn : ℕ → List UInt8
  /-- The bytes written to external out pipe `p`. -/
  extOut : ℕ → List UInt8
  procs : ℕ → Process
  log : List Event

/-- What the voter holds of out pipe `p` of replica `r`. -/
def State.held (s : State) (r p : ℕ) : List UInt8 :=
  block ((s.replicas r).buffers p) 0 ((s.replicas r).buffCounts p)

/-! ### Input -/

/-- `select` in `recvData`: the external in pipes with something to read. -/
def readyIn (c : Config) (s : State) : List ℕ :=
  (List.range c.inPipeCount).filter fun p => s.extIn p ≠ []

/-- `recvData` reads external in pipe `p`. -/
def recvData (s : State) (p : ℕ) : State :=
  { s with
    extInBuffer := (s.extIn p).take maxPipeBuff
    extIn := Function.update s.extIn p ((s.extIn p).drop maxPipeBuff)
    activePipeIndex := p
    procs := fun r => { s.procs r with wrote := fun _ => [] }
    log := .received p :: s.log }

/-- Data of the active pipe is to be waited for. -/
def checkWaitOnInput (c : Config) (s : State) : Bool :=
  (List.range c.indexedPipes).any fun p => s.activePipeIndex = c.timerStartIndex p

/-- `write(replicas[r].fd_ins[active_pipe_index], ext_in_buffer, ext_in_bufcnt)`. -/
def writeInput (s : State) (r : ℕ) : State :=
  { s with
    inQueue := Function.update s.inQueue r (Function.update (s.inQueue r) s.activePipeIndex
      (s.inQueue r s.activePipeIndex ++ s.extInBuffer)) }

/-- `sendToReps`, up to its return value. -/
def sendToReps (c : Config) (s : State) : State := loop (fun r s => writeInput s r) c.repCount s

/-! ### Output -/

/-- `remaining`. -/
def remaining (c : Config) (s : State) : ℤ :=
  truncate (c.votingTimeout - diffTime s.now s.watchdog)

/-- No time is left. -/
def Expired (c : Config) (s : State) : Prop := ¬ remaining c s > 0

instance (c : Config) (s : State) : Decidable (Expired c s) := inferInstanceAs (Decidable (¬ _))

/-- `select`: the out pipes of replica `r` with something to read. -/
def readyOf (c : Config) (s : State) (r : ℕ) : List (ℕ × ℕ) :=
  ((List.range c.outPipeCount).filter fun p => s.outQueue r p ≠ []).map fun p => (r, p)

/-- `select` over the out pipes of all replicas. -/
def readyOuts (c : Config) (s : State) : List (ℕ × ℕ) :=
  (List.range c.repCount).flatMap (readyOf c s)

/-- Read out pipe `p` of replica `r` into its buffer. -/
def readOut (s : State) (r p : ℕ) : State :=
  let chunk := (s.outQueue r p).take maxPipeBuff
  { s with
    replicas := Function.update s.replicas r
      { s.replicas r with
        buffCounts := Function.update (s.replicas r).buffCounts p chunk.length
        buffers := Function.update (s.replicas r).buffers p
          (store ((s.replicas r).buffers p) 0 chunk) }
    outQueue := Function.update s.outQueue r (Function.update (s.outQueue r) p
      ((s.outQueue r p).drop maxPipeBuff)) }

/-- Write what is held of out pipe `p` of slot `rep` to the external pipe. -/
def writeOut (rep p : ℕ) (s : State) : State :=
  if (s.replicas rep).buffCounts p ≠ 0 then
    { s with extOut := Function.update s.extOut p (s.extOut p ++ s.held rep p) }
  else s

/-- `replicas[r].buff_counts[p] = 0`. -/
def clearCount (r p : ℕ) (s : State) : State :=
  { s with
    replicas := Function.update s.replicas r
      { s.replicas r with buffCounts := Function.update (s.replicas r).buffCounts p 0 } }

/-- `sendData`. -/
def sendData (c : Config) (s : State) (repToSend : ℕ) : State :=
  let s := loop (writeOut repToSend) c.outPipeCount s
  let s := loop (fun r s => loop (clearCount r) c.outPipeCount s) c.repCount s
  { s with log := .sent repToSend :: s.log }

/-! ### Faults and restarts -/

/-- `rep_score`: the number of pipes with output. -/
def repScore (c : Config) (s : State) (r : ℕ) : ℕ :=
  loop (fun p repScore => if (s.replicas r).buffCounts p > 0 then repScore + 1 else repScore)
    c.outPipeCount 0

/-- `findFaultReplica`: `fault_index` next to `lowest_score`. -/
def findFaultReplica (c : Config) (s : State) : State :=
  let lowest := loop (fun r (lowest : ℕ × ℕ) =>
    -- Replicas with a lower index have a higher priority, so '<' makes priority the tie-breaker.
    if repScore c s r < lowest.2 then (r, repScore c s r) else lowest) c.repCount
    (0, c.outPipeCount)
  { s with faultIndex := lowest.1 }

/-- `killAndClean`: the process and its pipes are gone. -/
def killAndClean (s : State) (repToKill : ℕ) : State :=
  { s with
    inQueue := Function.update s.inQueue repToKill fun _ => []
    outQueue := Function.update s.outQueue repToKill fun _ => []
    log := .killed repToKill :: s.log }

/-- `startReplicas` for slot `index`: fresh pipes, and a new process or a fork. -/
def startReplica (c : Config) (s : State) (forking : Bool) (index : ℕ) : State :=
  { s with
    inQueue := Function.update s.inQueue index fun _ => []
    outQueue := Function.update s.outQueue index fun _ => []
    procs := Function.update s.procs index
      (if forking then ⟨false, fun _ => []⟩
      else s.procs ((s.faultIndex + (c.repCount - 1)) % c.repCount)) }

/-- `startReplicas`. -/
def startReplicas (c : Config) (s : State) (forking : Bool) (repIndex repStartCount : ℕ) :
    State :=
  loop (fun i s => startReplica c s forking (repIndex + i)) repStartCount s

/-- `initVoterM`, on the memory given for the replicas. -/
def initVoterM (c : Config) (s : State) : State :=
  let s := loop (fun r s =>
    { s with
      replicas := Function.update s.replicas r
        { s.replicas r with priority := c.voterPriority - 4 } }) c.repCount s
  startReplicas c s true 0 c.repCount

/-! ### Voting -/

/-- `fault` and `fault_index` in `checkSDC`. -/
structure Verdict where
  fault : Bool
  faultIndex : ℕ
  deriving DecidableEq

/-- Replicas `a` and `b` have different counts on pipe `p`. -/
def countsDiffer (s : State) (p a b : ℕ) : Bool :=
  (s.replicas a).buffCounts p ≠ (s.replicas b).buffCounts p

/-- Replicas `a` and `b` differ within the first count of replica 0 on pipe `p`. -/
def contentsDiffer (s : State) (p a b : ℕ) : Bool :=
  memcmp byteDiff ((s.replicas a).buffers p) 0 ((s.replicas b).buffers p) 0
    ((s.replicas 0).buffCounts p) ≠ 0

/-- DMR, pipe `p`: can only detect, and guess one that hasn't responded yet. -/
def checkDmr (s : State) (p : ℕ) (v : Verdict) : Verdict :=
  if countsDiffer s p 0 1 then
    if (s.replicas 0).buffCounts p < (s.replicas 1).buffCounts p then ⟨true, 0⟩ else ⟨true, 1⟩
  else if contentsDiffer s p 0 1 then ⟨true, 0⟩
  else v

/-- TMR: the replica that differs from the two others. -/
def checkTmr (differ : ℕ → ℕ → Bool) (v : Verdict) : Verdict :=
  if differ 0 1 then
    if differ 0 2 then ⟨true, 0⟩ else ⟨true, 1⟩
  else if differ 0 2 then ⟨true, 2⟩
  else v

/-- The `switch` of `checkSDC`. -/
def verdict (c : Config) (s : State) : Verdict :=
  match c.repCount with
  | 2 => loop (checkDmr s) c.outPipeCount ⟨false, s.faultIndex⟩
  | 3 =>
    let v := loop (fun p => checkTmr (countsDiffer s p)) c.outPipeCount ⟨false, s.faultIndex⟩
    if v.fault then v else loop (fun p => checkTmr (contentsDiffer s p)) c.outPipeCount v
  | _ => ⟨false, s.faultIndex⟩

/-- `checkSDC`: whether a fault was found, and the state after the replica was killed. -/
def checkSDC (c : Config) (s : State) : Bool × State :=
  let v := verdict c s
  let s := { s with faultIndex := v.faultIndex }
  if v.fault then (true, killAndClean s v.faultIndex) else (false, s)

/-- The sender in the recovery branches of `main`. -/
def sender (c : Config) (s : State) : ℕ := (s.faultIndex + (c.repCount - 1)) % c.repCount

/-- `main`, when all replicas responded in time. -/
def vote (c : Config) (s : State) : State :=
  let checked := checkSDC c s
  if checked.1 then
    let s := startReplicas c checked.2 false checked.2.faultIndex 1
    sendData c s (sender c s)
  else sendData c checked.2 0

/-- `main` in DMR and TMR, after `killAndClean`. -/
def recover (c : Config) (s : State) : State :=
  let s := startReplicas c s false s.faultIndex 1
  sendData c s (sender c s)

/-- `main` in SMR, after `killAndClean`: restart the replica from its exec and resend. -/
def restartAlone (c : Config) (s : State) : State :=
  sendToReps c (startReplicas c s true 0 1)

end S3RES.VoterM
