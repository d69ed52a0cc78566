import S3RES.Foundations.StepSystem
import S3RES.VoterM.Model

/-!
# VoterM as a step system

The main loop of `voter/voterm.c` next to the replicas, the external components and the
clock, in the two builds of the program: `QuadCore`, where all replicas run at once, and
`SingleCore`, where one after the other is given its input and waited for. One action of the
voter is a stretch between two system calls on which it can wait or between which others can
act: up to a `select`, the `select` itself, a single `read`. Killing, restarting and sending
are one action, as the voter reads nothing in between.

A `read` on an empty pipe is not enabled. `select` may return before its time is up with
nothing ready.
-/

namespace S3RES.VoterM

/-- The memory of the process before `initVoterM`, all zero. -/
def boot : State where
  activePipeIndex := 0
  extInBuffer := []
  replicas _ := ⟨0, fun _ => 0, fun _ _ => 0⟩
  timeoutOccurred := false
  faultIndex := 0
  watchdog := 0
  now := 0
  inQueue _ _ := []
  outQueue _ _ := []
  extIn _ := []
  extOut _ := []
  procs _ := ⟨false, fun _ => []⟩
  log := []

/-- The actions. `sched` says whether the calls of `sched_set_policy` succeed. -/
inductive Act
  | voter (sched : Bool)
  /-- Replica `r` writes to its out pipe `p`. -/
  | replicaWrites (r p : ℕ) (bytes : List UInt8)
  /-- Replica `r` reads `n` bytes of its in pipe `p`. -/
  | replicaReads (r p n : ℕ)
  /-- Another component writes to external in pipe `p`. -/
  | externalWrites (p : ℕ) (bytes : List UInt8)
  /-- The clock advances. -/
  | tick (d : ℕ)

/-- Replica `r` writes to its out pipe `p`. -/
def replicaWrite (s : State) (r p : ℕ) (bytes : List UInt8) : State :=
  { s with
    outQueue := Function.update s.outQueue r
      (Function.update (s.outQueue r) p (s.outQueue r p ++ bytes))
    procs := Function.update s.procs r
      { s.procs r with
        wrote := Function.update (s.procs r).wrote p ((s.procs r).wrote p ++ bytes) } }

/-- The actions of all but the voter. -/
def environment (c : Config) (s : State) : Act → Option State
  | .voter _ => none
  | .replicaWrites r p bytes =>
    if r < c.repCount ∧ p < c.outPipeCount ∧ bytes ≠ [] then some (replicaWrite s r p bytes)
    else none
  | .replicaReads r p n =>
    if r < c.repCount ∧ p < c.inPipeCount then
      some { s with
        inQueue := Function.update s.inQueue r
          (Function.update (s.inQueue r) p ((s.inQueue r p).drop n)) }
    else none
  | .externalWrites p bytes =>
    if p < c.inPipeCount then
      some { s with extIn := Function.update s.extIn p (s.extIn p ++ bytes) }
    else none
  | .tick d => some { s with now := s.now + d }

/-! ### `collectFromReps` -/

/-- Where a `while (!done)` loop stands. -/
inductive Stage
  /-- At its head. -/
  | check
  /-- In `select`. -/
  | waiting
  /-- In the loops over the replicas and pipes, with these left to read. -/
  | scan (todo : List (ℕ × ℕ))
  deriving DecidableEq

/-- The arguments and local variables of `collectFromReps`. -/
structure Collect where
  setTimer : Bool
  expected : ℕ
  repDone : ℕ
  done : Bool
  stage : Stage
  deriving DecidableEq

/-- The call of `collectFromReps`. -/
def Collect.start (setTimer : Bool) (expected : ℕ) : Collect :=
  ⟨setTimer, expected, 0, false, .check⟩

/-- What `collectFromReps` sets before its loop. -/
def beginCollect (s : State) : State := { s with timeoutOccurred := false, watchdog := s.now }

/-- A read of the awaited out pipe was counted. -/
def Collect.count (k : Collect) (todo : List (ℕ × ℕ)) : Collect :=
  { k with
    repDone := k.repDone + 1
    done := k.done || k.repDone + 1 = k.expected
    stage := .scan todo }

/-- Up to the next system call: the loop goes on in the given state, or it is left. -/
def collectFromReps (c : Config) (k : Collect) (s : State) : Option (Option Collect × State) :=
  match k.stage with
  | .check =>
    if k.setTimer ∧ Expired c s then some (none, { s with timeoutOccurred := true })
    else some (some { k with stage := .waiting }, s)
  | .waiting => some (some { k with stage := .scan (readyOuts c s) }, s)
  | .scan [] => some (if k.done then none else some { k with stage := .check }, s)
  | .scan ((r, p) :: todo) =>
    if s.outQueue r p = [] then none
    else if p = c.timerStopIndex s.activePipeIndex then some (some (k.count todo), readOut s r p)
    else some (some { k with stage := .scan todo }, readOut s r p)

/-! ### The build for several cores -/

namespace QuadCore

/-- Where `main` stands. -/
inductive Point
  /-- Before the `select` of `recvData`. -/
  | receive
  /-- After it, with the pipes that are set. -/
  | received (ready : List ℕ)
  /-- Before `sendToReps`. -/
  | send
  /-- In `collectFromReps`. -/
  | collect (k : Collect)
  /-- In `collectFromReps` after the restart of a lone replica. -/
  | retry (k : Collect)
  deriving DecidableEq

structure Machine extends State where
  point : Point

/-- `main` after `collectFromReps`. -/
def afterCollect (c : Config) (s : State) : Machine :=
  if s.timeoutOccurred then
    let s := findFaultReplica c s
    let s := killAndClean s s.faultIndex
    if c.repCount = 1 then
      { toState := beginCollect (restartAlone c s), point := .retry (.start false 1) }
    else { toState := recover c s, point := .receive }
  else { toState := vote c s, point := .receive }

/-- The actions of the voter. -/
def main (c : Config) (m : Machine) : Option Machine :=
  match m.point with
  | .receive =>
    let ready := readyIn c m.toState
    some { m with point := if ready = [] then .receive else .received ready }
  | .received [] => some { m with point := .receive }
  | .received (p :: _) => some { toState := recvData m.toState p, point := .send }
  | .send =>
    let s := sendToReps c m.toState
    if checkWaitOnInput c s then
      some { toState := beginCollect s, point := .collect (.start true c.repCount) }
    else some { toState := s, point := .receive }
  | .collect k =>
    match collectFromReps c k m.toState with
    | some (some k, s) => some { toState := s, point := .collect k }
    | some (none, s) => some (afterCollect c s)
    | none => none
  | .retry k =>
    match collectFromReps c k m.toState with
    | some (some k, s) => some { toState := s, point := .retry k }
    | some (none, s) => some { toState := sendData c s (sender c s), point := .receive }
    | none => none

/-- The step function. -/
def step (c : Config) (m : Machine) : Act → Option Machine
  | .voter _ => main c m
  | a => (environment c m.toState a).map fun s => { m with toState := s }

/-- VoterM started from zeroed memory. -/
def start (c : Config) : Machine := { toState := initVoterM c boot, point := .receive }

end QuadCore

/-! ### The build for a single core -/

namespace SingleCore

/-- Where `main` stands. -/
inductive Point
  /-- Before the `select` of `recvData`. -/
  | receive
  /-- After it, with the pipes that are set. -/
  | received (ready : List ℕ)
  /-- In `sendCollect`, before the turn of replica `r`, with `done_count`. -/
  | turn (r doneCount : ℕ)
  /-- In the `while` loop of replica `r`. -/
  | collect (r doneCount : ℕ) (done : Bool) (stage : Stage)
  /-- In `collectFromReps` after the restart of a lone replica. -/
  | retry (k : Collect)
  deriving DecidableEq

structure Machine extends State where
  point : Point

/-- `sched_set_policy(replicas[r].pid, priority)`. -/
def setPriority (s : State) (r : ℕ) (priority : ℤ) (sched : Bool) : State :=
  if sched then
    { s with
      replicas := Function.update s.replicas r { s.replicas r with priority := priority } }
  else s

/-- `main` after `sendCollect`. -/
def afterCollect (c : Config) (s : State) (doneCount : ℕ) : Machine :=
  if checkWaitOnInput c s then
    if doneCount = c.repCount then { toState := vote c s, point := .receive }
    else
      let s := killAndClean s s.faultIndex
      if c.repCount = 1 then
        { toState := beginCollect (restartAlone c s), point := .retry (.start false 1) }
      else { toState := recover c s, point := .receive }
  else { toState := s, point := .receive }

/-- The end of replica `r`'s turn. -/
def endTurn (c : Config) (s : State) (r doneCount : ℕ) (sched : Bool) : Machine :=
  { toState := setPriority s r (c.voterPriority - 4) sched, point := .turn (r + 1) doneCount }

/-- The actions of the voter. -/
def main (c : Config) (m : Machine) (sched : Bool) : Option Machine :=
  match m.point with
  | .receive =>
    let ready := readyIn c m.toState
    some { m with point := if ready = [] then .receive else .received ready }
  | .received [] => some { m with point := .receive }
  | .received (p :: _) =>
    some { toState := { recvData m.toState p with timeoutOccurred := false }, point := .turn 0 0 }
  | .turn r doneCount =>
    if r < c.repCount then
      let s := writeInput m.toState r
      if checkWaitOnInput c s then
        let s := setPriority { s with watchdog := s.now } r (c.voterPriority - 1) sched
        some { toState := s, point := .collect r doneCount false .check }
      else some { toState := s, point := .turn (r + 1) doneCount }
    else some (afterCollect c m.toState doneCount)
  | .collect r doneCount done .check =>
    if Expired c m.toState then
      some (endTurn c { m.toState with timeoutOccurred := true, faultIndex := r } r doneCount sched)
    else some { m with point := .collect r doneCount done .waiting }
  | .collect r doneCount done .waiting =>
    some { m with point := .collect r doneCount done (.scan (readyOf c m.toState r)) }
  | .collect r doneCount done (.scan []) =>
    if done then some (endTurn c m.toState r doneCount sched)
    else some { m with point := .collect r doneCount done .check }
  | .collect r doneCount done (.scan ((_, p) :: todo)) =>
    if m.outQueue r p = [] then none
    else if p = c.timerStopIndex m.activePipeIndex then
      some { toState := readOut m.toState r p
             point := .collect r (doneCount + 1) true (.scan todo) }
    else
      some { toState := readOut m.toState r p
             point := .collect r doneCount done (.scan todo) }
  | .retry k =>
    match collectFromReps c k m.toState with
    | some (some k, s) => some { toState := s, point := .retry k }
    | some (none, s) => some { toState := sendData c s 0, point := .receive }
    | none => none

/-- The step function. -/
def step (c : Config) (m : Machine) : Act → Option Machine
  | .voter sched => main c m sched
  | a => (environment c m.toState a).map fun s => { m with toState := s }

/-- VoterM started from zeroed memory. -/
def start (c : Config) : Machine := { toState := initVoterM c boot, point := .receive }

end SingleCore

end S3RES.VoterM
