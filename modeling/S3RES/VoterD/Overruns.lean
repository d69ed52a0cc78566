import S3RES.VoterD.Pinning
import S3RES.Voter.FdServer

/-!
# The arrays of VoterD

Which elements of its arrays VoterD accesses, function by function, next to the model of what the
functions do. `ext_pipes`, the vote pipes of a replica, `voter_rep_in_copy` and the
`restarter_buffer` of a restart have `pipe_count` elements, the two timer arrays have two. But
`restart_prep` frees `PIPE_LIMIT` buffers, and `parseArgs` enters every timed pipe.

`overruns_iff`: all accesses of start-up and of a run are within the arrays exactly if no more than
two inputs and two outputs are timed, there are replicas to compare, and no replica is restarted
from another one while there are fewer than `PIPE_LIMIT` pipes.
-/

namespace S3RES.VoterD

open Loop Memory StepSystem

/-! ### Accesses -/

/-- An element of an array, of replica `r` where each replica has one. -/
inductive Access
  | extPipes (i : ℕ)
  | votPipes (r i : ℕ)
  | voterRepInCopy (r i : ℕ)
  | timerStartIndex (i : ℕ)
  | timerStopIndex (i : ℕ)
  | restarterBuffer (i : ℕ)
  deriving DecidableEq

/-- The element is there. A slot behind `rep_count` has no arrays. -/
def Access.InBounds (c : Config) : Access → Prop
  | .extPipes i | .restarterBuffer i => i < c.pipeCount
  | .votPipes r i | .voterRepInCopy r i => r < c.repCount ∧ i < c.pipeCount
  | .timerStartIndex i | .timerStopIndex i => i < 2

instance (c : Config) : DecidablePred (Access.InBounds c)
  | .extPipes _ | .restarterBuffer _ => inferInstanceAs (Decidable (_ < _))
  | .votPipes _ _ | .voterRepInCopy _ _ => inferInstanceAs (Decidable (_ ∧ _))
  | .timerStartIndex _ | .timerStopIndex _ => inferInstanceAs (Decidable (_ < _))

/-- All of them are there. -/
def Within (c : Config) (l : List Access) : Prop := ∀ a ∈ l, a.InBounds c

instance (c : Config) (l : List Access) : Decidable (Within c l) :=
  inferInstanceAs (Decidable (∀ a ∈ l, _))

/-- `rep_gap`. -/
def repGapAccesses (reps : ℕ → Replica) (num repNum : ℕ) : List Access :=
  (List.range (reps 0).pipeCount).flatMap fun p =>
    .votPipes 0 p ::
      if ((reps 0).votPipes p).fdIn ≠ 0 then
        .votPipes repNum p :: (List.range num).map (.votPipes · p)
      else []

/-- `balanceReps`. The gaps of `starting` and `second` are gaps of replicas that have their turn
as well. -/
def balanceAccesses (c : Config) (s : State) : List Access :=
  if c.repCount < 2 then []
  else (List.range c.repCount).flatMap fun index => repGapAccesses s.replicas c.repCount index

/-- The tests of a pipe against a timer array. -/
def timerAccesses (element : ℕ → Access) (timerIndex : ℕ → ℕ) (p : ℕ) : List Access :=
  element 0 :: if p = timerIndex 0 then [] else [element 1]

/-- `processData`. -/
def processDataAccesses (c : Config) (s : State) (p : ℕ) : List Access :=
  (if s.timerStarted then [] else timerAccesses .timerStartIndex c.timerStartIndex p) ++
    balanceAccesses c (startTimer c.timerStartIndex s p) ++
    (List.range c.repCount).flatMap fun r => [.votPipes r p, .extPipes p]

/-- `bytesReady`. -/
def bytesReadyAccesses (c : Config) (p : ℕ) : List Access :=
  (List.range c.repCount).map (.votPipes · p)

/-- `sendPipe`. -/
def sendPipeAccesses (c : Config) (s : State) (p u : ℕ) : List Access :=
  bytesReadyAccesses c p ++
    if bytesReady s.replicas c.repCount p = 0 then []
    else timerAccesses .timerStopIndex c.timerStopIndex p ++
      (List.range c.repCount).flatMap fun r =>
        .votPipes r p :: if u = r then [.extPipes p] else []

/-! ### Restarts -/

/-- `stealPipes`: the second loop goes over the pipes that are set. -/
def stealPipesAccesses (s : State) (rep : ℕ) : List Access :=
  (List.range (s.replicas rep).pipeCount).flatMap fun i =>
    .voterRepInCopy rep i :: if stolen s rep i ≠ [] then [.restarterBuffer i] else []

/-- `returnPipes`. -/
def returnPipesAccesses (s : State) (rep : ℕ) (buffer : ℕ → List UInt8) : List Access :=
  (List.range (s.replicas rep).pipeCount).flatMap fun i =>
    if (buffer i).length > 0 then [.votPipes rep i, .restarterBuffer i] else []

/-- `cleanupReplica`, or a round of `initReplicas`. -/
def slotAccesses (s : State) (rep : ℕ) : List Access :=
  (List.range (s.replicas rep).pipeCount).map (.votPipes rep)

/-- `createPipes` for one slot. -/
def createPipesAccesses (rep pipeCount : ℕ) : List Access :=
  (List.range pipeCount).flatMap fun p => [.extPipes p, .votPipes rep p, .voterRepInCopy rep p]

/-- `restartReplica`. -/
def restartReplicaAccesses (c : Config) (s : State) (restarter restartee : ℕ)
    (sched : ℕ → ℕ → Bool) : List Access :=
  let cleanup := slotAccesses s restartee
  let s := { s with fds := cleanupReplica (s.replicas restartee) s.fds }
  let s := { s with replicas := favour c restarter restartee (sched 1) s.replicas }
  let init := slotAccesses s restartee
  let s := reinit c s restartee 0
  let create := createPipesAccesses restartee (s.replicas restarter).pipeCount
  let s := newPipes c s restartee (s.replicas restarter).pipeCount
  cleanup ++ init ++ create ++ balanceAccesses c s

/-- A round of the loop in `restart_prep` that copies the pipes. -/
def copyAccesses (c : Config) (s : State) (restartee restarter i : ℕ) : List Access :=
  .votPipes restarter i ::
    if (s.vot restarter i).fdIn ≠ 0 then
      .votPipes restartee i :: sendPipeAccesses c
        (s.setVot restartee i (copyPipe (s.vot restartee i) (s.vot restarter i))) i restarter
    else []

/-- `restart_prep`. -/
def restartPrepAccesses (c : Config) (s : State) (restartee restarter : ℕ)
    (sched : ℕ → ℕ → Bool) : List Access :=
  let buffer := fun i => if i < (s.replicas restarter).pipeCount then stolen s restarter i else []
  -- restarter_buffer is allocated with pipe_count elements, which are filled in at once
  let allocate := (List.range c.pipeCount).map Access.restarterBuffer
  let steal := stealPipesAccesses s restarter
  let s := stealPipes s restarter
  let s := { s with timerStarted := false }
  let restart := restartReplicaAccesses c s restarter restartee sched
  -- from here on the slot has its new pipes
  let s := restartReplica c s restarter restartee sched
  let copy := (List.range c.pipeCount).flatMap fun i =>
    copyAccesses c (loop (copyAndSend c restartee restarter) i s) restartee restarter i
  let s := loop (copyAndSend c restartee restarter) c.pipeCount s
  let back := returnPipesAccesses s restartee buffer
  let s := returnPipes s restartee buffer
  -- the loop that frees the buffers goes to PIPE_LIMIT
  allocate ++ steal ++ restart ++ copy ++ back ++ returnPipesAccesses s restarter buffer ++
    (List.range pipeLimit).map .restarterBuffer

/-- `startReplicas`. -/
def startReplicasAccesses (c : Config) (s : State) : List Access :=
  ((List.range c.repCount).flatMap fun r => slotAccesses s r) ++
    (List.range c.repCount).flatMap fun r => createPipesAccesses r c.pipeCount

/-- `voterRestartHandler`. -/
def voterRestartHandlerAccesses (c : Config) (s : State) (sched : ℕ → ℕ → Bool) : List Access :=
  match c.repType with
  | .smr =>
    -- a cold start, and the last data once more
    let s₁ := { s with fds := cleanupReplica (s.replicas 0) s.fds }
    slotAccesses s 0 ++ startReplicasAccesses c s₁ ++
      (List.range c.pipeCount).flatMap fun p =>
        let s := loop (fun p s =>
          if (c.extPipes p).fdIn ≠ 0 then processData c s p (sched 0) else s) p
          (startReplicas c s₁)
        .extPipes p :: if (c.extPipes p).fdIn ≠ 0 then processDataAccesses c s p else []
  | .dmr | .tmr =>
    let restartee := behindRep s.replicas c.repCount (c.timerStopIndex s.currentTimer)
    let restarter := (restartee + (c.repCount - 1)) % c.repCount
    -- behindRep looks at the pipe the timer waits for
    .timerStopIndex s.currentTimer ::
      (List.range c.repCount).map (.votPipes · (c.timerStopIndex s.currentTimer)) ++
      restartPrepAccesses c s restartee restarter sched
  | _ => []

/-! ### Voting -/

/-- The TMR loop, from these rounds on. -/
def checkTmrAccesses (c : Config) (s : State) (p bytesAvail : ℕ) (sched : ℕ → ℕ → Bool) :
    List ℕ → List Access
  | [] => []
  | r :: rs =>
    let compared := [.votPipes r p, .votPipes ((r + 1) % c.repCount) p]
    let third := [.votPipes r p, .votPipes ((r + 2) % c.repCount) p]
    -- the third replica is looked at only when the first two agree
    match outvoted c s p bytesAvail r with
    | none => compared ++ checkTmrAccesses c s p bytesAvail sched rs
    | some none => compared ++ third ++ sendPipeAccesses c s p r
    | some (some restartee) => compared ++ third ++ restartPrepAccesses c s restartee r sched

/-- `checkSDC`. -/
def checkSDCAccesses (c : Config) (s : State) (p : ℕ) (sched : ℕ → ℕ → Bool) : List Access :=
  let bytesAvail := bytesReady s.replicas c.repCount p
  bytesReadyAccesses c p ++
    if bytesAvail = 0 then []
    else
      match c.repType with
      | .smr => sendPipeAccesses c s p 0
      | .dmr => [.votPipes 0 p, .votPipes 1 p] ++ sendPipeAccesses c s p 0
      | .tmr => checkTmrAccesses c s p bytesAvail sched (List.range c.repCount)
      | _ => []

/-! ### The steps -/

/-- `checkSync`. -/
def checkSyncAccesses (c : Config) : List Access :=
  (List.range c.pipeCount).flatMap fun p =>
    .votPipes 0 p :: (List.range (c.repCount - 1)).map fun r => .votPipes (r + 1) p

/-- The set for `select`. -/
def watchAccesses (c : Config) (s : State) : List Access :=
  (if checkSync c s ∧ s.timerStarted = false then (List.range c.pipeCount).map .extPipes else []) ++
    (List.range c.pipeCount).flatMap fun p => (List.range c.repCount).map (.votPipes · p)

/-- The loop over the external pipes. It ends behind the pipe that is read. -/
def externalAccesses (c : Config) (s : State) (ready : List ℕ) : List Access :=
  match externalPipe c ready with
  | none => (List.range c.pipeCount).map .extPipes
  | some p =>
    let chunk := (s.extIn p).take maxVotePipeBuff
    let s := { s with
      extIn := Function.update s.extIn p ((s.extIn p).drop maxVotePipeBuff)
      extData := Function.update s.extData p chunk }
    (List.range (p + 1)).map .extPipes ++
      if chunk = [] then [] else processDataAccesses c s p

/-- The accesses of a step. -/
def stepAccesses (c : Config) (s : State) : Act → List Access
  | .update sched =>
    match s.point with
    | .update =>
      -- what follows the timer check is the same whether or not it restarted a replica
      (if Expired c s then voterRestartHandlerAccesses c s sched else []) ++
        checkSyncAccesses c ++ watchAccesses c (checkTimer c s sched)
    | _ => []
  | .external _ =>
    match s.point with
    | .external ready => externalAccesses c s ready
    | _ => []
  | .scan =>
    match s.point with
    | .scan ready ((p, r) :: _) =>
      .votPipes r p ::
        -- processFromRep
        if IsSet s ready p r ∧ ¬ s.timerStarted then
          timerAccesses .timerStopIndex c.timerStopIndex p
        else []
    | _ => []
  | .wake =>
    match s.point with
    | .blocked p r _ _ => [.votPipes r p]
    | _ => []
  | .vote sched =>
    match s.point with
    | .vote p _ _ => balanceAccesses c s ++ checkSDCAccesses c (balance c s (sched 0)) p sched
    | _ => []
  | _ => []

/-- `parseArgs`, over the pipes. -/
def parseArgsAccesses (extPipes : ℕ → VotePipe) (pipeCount : ℕ) : List Access :=
  (List.range pipeCount).map .extPipes ++ (List.range pipeCount).flatMap fun i =>
    .extPipes i ::
      if (extPipes i).timed then
        if (extPipes i).fdIn ≠ 0 then [.timerStartIndex (indexTimers extPipes i).cInPipe]
        else [.timerStopIndex (indexTimers extPipes i).cOutPipe]
      else []

/-- `initVoterD`. -/
def initVoterDAccesses (c : Config) (s : State) : List Access :=
  startReplicasAccesses c s ++ (List.range c.pipeCount).map .extPipes ++
    (List.range c.repCount).flatMap fun r => slotAccesses (startReplicas c s) r

/-! ### When they are within the arrays -/

/-- `doOneUpdate` begins. -/
def Begins (s : State) (a : Act) : Prop := s.point = .update ∧ ∃ sched, a = .update sched

/-- There are replicas to compare, and none is restarted unless the buffers are as many as are
freed. -/
def Harmless (c : Config) (s : State) (a : Act) : Prop :=
  (Begins s a → 0 < c.repCount ∨ c.pipeCount = 0) ∧
    (restarts c s a = none ∨ pipeLimit ≤ c.pipeCount)

section Lists

variable {c : Config} {a : Access} {l l' : List Access} {n : ℕ}

@[simp] theorem within_nil : Within c [] := fun _ h => absurd h List.not_mem_nil

@[simp] theorem within_cons : Within c (a :: l) ↔ a.InBounds c ∧ Within c l := List.forall_mem_cons

@[simp] theorem within_append : Within c (l ++ l') ↔ Within c l ∧ Within c l' :=
  List.forall_mem_append

@[simp] theorem within_map_range {f : ℕ → Access} :
    Within c ((List.range n).map f) ↔ ∀ i < n, (f i).InBounds c := by
  simp [Within]

@[simp] theorem within_flatMap_range {f : ℕ → List Access} :
    Within c ((List.range n).flatMap f) ↔ ∀ i < n, Within c (f i) := by
  simp only [Within, List.mem_flatMap, List.mem_range]
  constructor
  · exact fun h i hi a ha => h a ⟨i, hi, ha⟩
  · rintro h a ⟨i, hi, ha⟩
    exact h i hi a ha

theorem within_ite {P : Prop} [Decidable P] (h : P → Within c l) (h' : ¬ P → Within c l') :
    Within c (if P then l else l') := by
  split
  · exact h ‹_›
  · exact h' ‹_›

end Lists

variable {c : Config} {s t : State} {p r u v : ℕ}

/-- The replicas have as many pipes as were allocated. -/
def Counted (c : Config) (counts : ℕ → ℕ) : Prop := ∀ r < c.repCount, counts r = c.pipeCount

/-- The number of pipes of each replica. -/
def State.counts (s : State) : ℕ → ℕ := (s.shape Replica.pipeCount).1

/-! ### The functions -/

theorem within_balance (h : Counted c s.counts) : Within c (balanceAccesses c s) := by
  rw [balanceAccesses]
  refine within_ite (fun _ => within_nil) fun hlt => within_flatMap_range.mpr fun index hindex => ?_
  have hcount : (s.replicas 0).pipeCount = c.pipeCount := h 0 (by omega)
  rw [repGapAccesses, hcount]
  refine within_flatMap_range.mpr fun p hp => within_cons.mpr ⟨⟨by omega, hp⟩, ?_⟩
  refine within_ite (fun _ => ?_) fun _ => within_nil
  exact within_cons.mpr ⟨⟨hindex, hp⟩, within_map_range.mpr fun r hr => ⟨hr, hp⟩⟩

theorem within_timer (element : ℕ → Access) (h : ∀ k < 2, (element k).InBounds c)
    (timerIndex : ℕ → ℕ) (p : ℕ) : Within c (timerAccesses element timerIndex p) :=
  within_cons.mpr ⟨h 0 (by omega), within_ite (fun _ => within_nil)
    fun _ => within_cons.mpr ⟨h 1 (by omega), within_nil⟩⟩

theorem counts_startTimer (timerIndex : ℕ → ℕ) (s : State) (p : ℕ) :
    (startTimer timerIndex s p).counts = s.counts := by
  simp only [startTimer]
  split_ifs <;> rfl

theorem within_processData (h : Counted c s.counts) (hp : p < c.pipeCount) :
    Within c (processDataAccesses c s p) := by
  simp only [processDataAccesses, within_append, within_flatMap_range]
  refine ⟨⟨within_ite (fun _ => within_nil) fun _ => within_timer .timerStartIndex (fun _ hk => hk) _ _, ?_⟩,
    fun r hr => ?_⟩
  · exact within_balance (by rw [counts_startTimer]; exact h)
  · exact within_cons.mpr ⟨⟨hr, hp⟩, within_cons.mpr ⟨hp, within_nil⟩⟩

theorem within_bytesReady (hp : p < c.pipeCount) : Within c (bytesReadyAccesses c p) :=
  within_map_range.mpr fun _ hr => ⟨hr, hp⟩

theorem within_sendPipe (s : State) (hp : p < c.pipeCount) (u : ℕ) :
    Within c (sendPipeAccesses c s p u) := by
  refine within_append.mpr ⟨within_bytesReady hp, within_ite (fun _ => within_nil) fun _ => ?_⟩
  refine within_append.mpr ⟨within_timer .timerStopIndex (fun _ hk => hk) _ _,
    within_flatMap_range.mpr fun r hr => within_cons.mpr ⟨⟨hr, hp⟩, within_ite (fun _ => ?_) fun _ => within_nil⟩⟩
  exact within_cons.mpr ⟨hp, within_nil⟩

theorem within_slot (h : s.counts r ≤ c.pipeCount) (hr : r < c.repCount) :
    Within c (slotAccesses s r) :=
  within_map_range.mpr fun _ hp => ⟨hr, hp.trans_le h⟩

theorem within_createPipes (hr : r < c.repCount) :
    Within c (createPipesAccesses r c.pipeCount) :=
  within_flatMap_range.mpr fun _ hp =>
    within_cons.mpr ⟨hp, within_cons.mpr ⟨⟨hr, hp⟩, within_cons.mpr ⟨⟨hr, hp⟩, within_nil⟩⟩⟩

/-! ### Restarts -/

/-- The slot that is refilled has as many pipes as were asked for. -/
theorem counted_newPipes (h : Counted c s.counts) (v index : ℕ) :
    Counted c (newPipes c (reinit c s v index) v c.pipeCount).counts := by
  intro r hr
  have hfilled : ((newPipes c (reinit c s v index) v c.pipeCount).replicas v).pipeCount =
      c.pipeCount := by
    simp only [newPipes, reinit, Function.update_self]
    exact FdServer.pipeCount_createPipes _ _ _ rfl
  rw [State.counts, shape_newPipes_reinit, hfilled]
  rcases eq_or_ne r v with rfl | hrv
  · exact Function.update_self ..
  · exact (Function.update_of_ne hrv ..).trans (h r hr)

/-- The number of pipes that the parent has. -/
theorem pipeCount_reinit_of_ne (huv : u ≠ v) (c : Config) (s : State) (index : ℕ) :
    ((reinit c s v index).replicas u).pipeCount = (s.replicas u).pipeCount :=
  congrArg Replica.pipeCount (Function.update_of_ne huv ..)

/-- The state of `restartReplica` behind its priority loop. -/
def favoured (c : Config) (s : State) (u v : ℕ) (sched : ℕ → ℕ → Bool) : State :=
  { s with
    fds := cleanupReplica (s.replicas v) s.fds
    replicas := favour c u v (sched 1) s.replicas }

theorem counts_favoured (c : Config) (s : State) (u v : ℕ) (sched : ℕ → ℕ → Bool) :
    (favoured c s u v sched).counts = s.counts :=
  congrArg Prod.fst (shape_favour .pipeCount c s u v (sched 1))

/-- The parent has all its pipes when the slot is refilled. -/
theorem pipeCount_favoured (h : Counted c s.counts) (hu : u < c.repCount) (huv : u ≠ v)
    (sched : ℕ → ℕ → Bool) :
    ((reinit c (favoured c s u v sched) v 0).replicas u).pipeCount = c.pipeCount := by
  rw [pipeCount_reinit_of_ne huv]
  exact (congrFun (counts_favoured c s u v sched) u).trans (h u hu)

theorem counted_restartReplica (h : Counted c s.counts) (hu : u < c.repCount) (huv : u ≠ v)
    (sched : ℕ → ℕ → Bool) : Counted c (restartReplica c s u v sched).counts := by
  have hrefilled := counted_newPipes (c := c) (s := favoured c s u v sched)
    (by rw [counts_favoured]; exact h) v 0
  intro r hr
  rw [State.counts, restartReplica]
  dsimp only
  rw [shape_balance .pipeCount]
  have hparent := pipeCount_favoured h hu huv sched
  simp only [favoured] at hparent hrefilled
  rw [hparent]
  exact hrefilled r hr

theorem within_restartReplica (h : Counted c s.counts) (hu : u < c.repCount) (hv : v < c.repCount)
    (huv : u ≠ v) (sched : ℕ → ℕ → Bool) : Within c (restartReplicaAccesses c s u v sched) := by
  have hfavoured : Counted c (favoured c s u v sched).counts := by
    rw [counts_favoured]
    exact h
  have hparent := pipeCount_favoured h hu huv sched
  have hslot := within_slot (hfavoured v hv).le hv
  have hbalance := within_balance (counted_newPipes hfavoured v 0)
  simp only [favoured] at hparent hslot hbalance
  simp only [restartReplicaAccesses, within_append, hparent]
  exact ⟨⟨⟨within_slot (h v hv).le hv, hslot⟩, within_createPipes hv⟩, hbalance⟩

theorem within_copy (s : State) (hu : u < c.repCount) (hv : v < c.repCount) (hp : p < c.pipeCount) :
    Within c (copyAccesses c s v u p) :=
  within_cons.mpr ⟨⟨hu, hp⟩, within_ite
    (fun _ => within_cons.mpr ⟨⟨hv, hp⟩, within_sendPipe _ hp u⟩) fun _ => within_nil⟩

theorem within_stealPipes (h : Counted c s.counts) (hu : u < c.repCount) :
    Within c (stealPipesAccesses s u) := by
  have hcount : (s.replicas u).pipeCount = c.pipeCount := h u hu
  rw [stealPipesAccesses, hcount]
  exact within_flatMap_range.mpr fun p hp => within_cons.mpr ⟨⟨hu, hp⟩,
    within_ite (fun _ => within_cons.mpr ⟨hp, within_nil⟩) fun _ => within_nil⟩

theorem within_returnPipes (h : Counted c s.counts) (hu : u < c.repCount)
    (buffer : ℕ → List UInt8) : Within c (returnPipesAccesses s u buffer) := by
  have hcount : (s.replicas u).pipeCount = c.pipeCount := h u hu
  rw [returnPipesAccesses, hcount]
  exact within_flatMap_range.mpr fun p hp => within_ite
    (fun _ => within_cons.mpr ⟨⟨hu, hp⟩, within_cons.mpr ⟨hp, within_nil⟩⟩) fun _ => within_nil

/-- **A restart** stays within the arrays exactly if there are as many buffers as it frees. -/
theorem within_restartPrep_iff (h : Counted c s.counts) (hu : u < c.repCount)
    (hv : v < c.repCount) (huv : u ≠ v) (sched : ℕ → ℕ → Bool) :
    Within c (restartPrepAccesses c s v u sched) ↔ pipeLimit ≤ c.pipeCount := by
  have hstolen : Counted c { stealPipes s u with timerStarted := false }.counts := by
    intro r hr
    exact (congrFun (congrArg Prod.fst (shape_stealPipes Replica.pipeCount s u)) r).trans (h r hr)
  have hrestarted := counted_restartReplica hstolen hu huv sched
  have hcopied : ∀ n, Counted c (loop (copyAndSend c v u) n (restartReplica c
      { stealPipes s u with timerStarted := false } u v sched)).counts := by
    intro n
    rw [State.counts, loop_proj (State.shape Replica.pipeCount) (shape_copyAndSend .pipeCount c v u)]
    exact hrestarted
  have hreturned : ∀ buffer, Counted c (returnPipes (loop (copyAndSend c v u) c.pipeCount
      (restartReplica c { stealPipes s u with timerStarted := false } u v sched)) v
        buffer).counts := by
    intro buffer
    rw [State.counts, shape_returnPipes]
    exact hcopied _
  simp only [restartPrepAccesses, within_append, within_map_range, within_flatMap_range]
  -- only the last loop counts to another number
  constructor
  · rintro ⟨-, hfree⟩
    exact not_lt.mp fun hlt => lt_irrefl _ (hfree _ hlt)
  · intro hlimit
    refine ⟨⟨⟨⟨⟨⟨fun i hi => hi, within_stealPipes h hu⟩,
      within_restartReplica hstolen hu hv huv sched⟩, fun i hi => within_copy _ hu hv hi⟩,
      within_returnPipes (hcopied _) hv _⟩, within_returnPipes (hreturned _) hu _⟩, ?_⟩
    exact fun i hi => hi.trans_le hlimit

/-- `startReplicas` gives every slot its pipes. -/
theorem counted_startReplicas (c : Config) (s : State) : Counted c (startReplicas c s).counts := by
  -- initReplicas sets the counts to zero, createPipes counts up from there
  have hempty : ∀ r < c.repCount,
      (loop (fun r s => reinit c s r r) c.repCount s).counts r = 0 := by
    refine loop_induction (fun k (t : State) => ∀ r < k, t.counts r = 0)
      (fun r hr => absurd hr r.not_lt_zero) fun k _ t ht r hr => ?_
    rcases eq_or_ne r k with rfl | hrk
    · simp only [State.counts, State.shape, reinit, Function.update_self]
      rfl
    · have hkeep : (reinit c t k k).counts r = t.counts r := pipeCount_reinit_of_ne hrk c t k
      rw [hkeep]
      exact ht r (by omega)
  have hfilled := loop_induction (n := c.repCount)
    (s := loop (fun r s => reinit c s r r) c.repCount s)
    (f := fun r s => newPipes c s r c.pipeCount)
    (fun k (t : State) => (∀ r < k, t.counts r = c.pipeCount) ∧
      ∀ r < c.repCount, k ≤ r → t.counts r = 0)
    ⟨fun r hr => absurd hr r.not_lt_zero, fun r hr _ => hempty r hr⟩ ?_
  · intro r hr
    refine (congrFun (loop_proj State.counts (fun r s => ?_) ..) r).trans (hfilled.1 r hr)
    rfl
  · rintro k hk t ⟨hbefore, hbehind⟩
    have hother : ∀ r, r ≠ k → (newPipes c t k c.pipeCount).counts r = t.counts r := fun r hrk =>
      congrArg Replica.pipeCount (Function.update_of_ne hrk ..)
    refine ⟨fun r hr => ?_, fun r hr hkr => ?_⟩
    · rcases eq_or_ne r k with rfl | hrk
      · refine (congrArg Replica.pipeCount (Function.update_self ..)).trans ?_
        exact FdServer.pipeCount_createPipes _ _ _ (hbehind r hk le_rfl)
      · rw [hother r hrk]
        exact hbefore r (by omega)
    · rw [hother r (by omega)]
      exact hbehind r hr (by omega)

theorem within_startReplicas (h : ∀ r < c.repCount, s.counts r ≤ c.pipeCount) :
    Within c (startReplicasAccesses c s) :=
  within_append.mpr ⟨within_flatMap_range.mpr fun r hr => within_slot (h r hr) hr,
    within_flatMap_range.mpr fun _ hr => within_createPipes hr⟩

theorem counts_processData (c : Config) (s : State) (p : ℕ) (sched : ℕ → Bool) :
    (processData c s p sched).counts = s.counts :=
  (congrArg Prod.fst (shape_processData .pipeCount c s p sched)).trans (counts_startTimer ..)

/-- A round of the loop that sends the data of the inputs again. -/
theorem counts_resend (c : Config) (sched : ℕ → Bool) (n : ℕ) (s : State) :
    (loop (fun p s => if (c.extPipes p).fdIn ≠ 0 then processData c s p sched else s)
      n s).counts = s.counts := by
  refine loop_proj State.counts (fun p t => ?_) n s
  split
  · exact counts_processData ..
  · rfl

/-- The timers stop at pipes that exist. -/
def TimersExist (c : Config) : Prop := ∀ k, 0 < c.pipeCount → c.timerStopIndex k < c.pipeCount

/-- A replica restarts from another one, which is never itself. -/
theorem restarter_lt (hv : v < c.repCount) (hcount : 2 ≤ c.repCount) :
    (v + (c.repCount - 1)) % c.repCount < c.repCount ∧
      (v + (c.repCount - 1)) % c.repCount ≠ v := by
  refine ⟨Nat.mod_lt _ (by omega), fun heq => ?_⟩
  rcases Nat.eq_zero_or_pos v with rfl | hpos
  · rw [Nat.mod_eq_of_lt (by omega)] at heq
    omega
  · rw [show v + (c.repCount - 1) = v - 1 + c.repCount by omega, Nat.add_mod_right,
      Nat.mod_eq_of_lt (by omega)] at heq
    omega

/-- The timer handler. -/
theorem within_voterRestartHandler_iff (h : Counted c s.counts) (htimer : s.currentTimer < 2)
    (hexist : TimersExist c) (sched : ℕ → ℕ → Bool) :
    Within c (voterRestartHandlerAccesses c s sched) ↔
      (c.repType = .dmr ∨ c.repType = .tmr → pipeLimit ≤ c.pipeCount) := by
  have hrestart : 2 ≤ c.repCount → (Within c (.timerStopIndex s.currentTimer ::
      (List.range c.repCount).map (.votPipes · (c.timerStopIndex s.currentTimer)) ++
        restartPrepAccesses c s
          (behindRep s.replicas c.repCount (c.timerStopIndex s.currentTimer))
          ((behindRep s.replicas c.repCount (c.timerStopIndex s.currentTimer) +
            (c.repCount - 1)) % c.repCount) sched) ↔ pipeLimit ≤ c.pipeCount) := by
    intro hcount
    have hpos : 0 < c.repCount := by omega
    have hv := behindRep_lt s.replicas (c.timerStopIndex s.currentTimer) hpos
    obtain ⟨hu, huv⟩ := restarter_lt hv hcount
    rw [within_append, within_cons, within_map_range, within_restartPrep_iff h hu hv huv]
    refine ⟨And.right, fun hlimit => ⟨⟨htimer, fun r hr => ⟨hr, ?_⟩⟩, hlimit⟩⟩
    exact hexist _ (lt_of_lt_of_le (by decide) hlimit)
  cases htype : c.repType with
  | none | repTypeError =>
    simp only [voterRestartHandlerAccesses, htype]
    exact iff_of_true within_nil (by simp)
  | smr =>
    have hone : c.repCount = 1 := by rw [Config.repCount, htype]; rfl
    simp only [voterRestartHandlerAccesses, htype]
    refine iff_of_true ?_ (by simp)
    refine within_append.mpr ⟨within_append.mpr
      ⟨within_slot (h 0 (by omega)).le (by omega), ?_⟩, ?_⟩
    · exact within_startReplicas fun r hr => (h r hr).le
    · refine within_flatMap_range.mpr fun p hp => within_cons.mpr ⟨hp, within_ite (fun _ => ?_)
        fun _ => within_nil⟩
      refine within_processData ?_ hp
      rw [counts_resend]
      exact counted_startReplicas c _
  | dmr =>
    have htwo : c.repCount = 2 := by rw [Config.repCount, htype]; rfl
    simp only [voterRestartHandlerAccesses, htype]
    rw [hrestart (by omega)]
    simp
  | tmr =>
    have hthree : c.repCount = 3 := by rw [Config.repCount, htype]; rfl
    simp only [voterRestartHandlerAccesses, htype]
    rw [hrestart (by omega)]
    simp

/-! ### Votes -/

theorem outvoted_eq_some {n : ℕ} (h : outvoted c s p n r = some (some v)) :
    v = (r + 2) % c.repCount := by
  rw [outvoted] at h
  split_ifs at h
  · exact (Option.some.inj (Option.some.inj h)).symm
  · cases h

/-- The TMR loop. -/
theorem within_checkTmr_iff (h : Counted c s.counts) (htype : c.repType = .tmr)
    (hp : p < c.pipeCount) (n : ℕ) (sched : ℕ → ℕ → Bool) {rs : List ℕ}
    (hrs : ∀ r ∈ rs, r < c.repCount) : Within c (checkTmrAccesses c s p n sched rs) ↔
      (rs.findSome? fun r => outvoted c s p n r).getD none = none ∨ pipeLimit ≤ c.pipeCount := by
  have hthree : c.repCount = 3 := by rw [Config.repCount, htype]; rfl
  induction rs with
  | nil => exact iff_of_true within_nil (.inl rfl)
  | cons r rs ih =>
    obtain ⟨hr, hrs⟩ := List.forall_mem_cons.mp hrs
    have hpair : ∀ k, Within c [.votPipes r p, .votPipes ((r + k) % c.repCount) p] := fun k =>
      within_cons.mpr ⟨⟨hr, hp⟩, within_cons.mpr ⟨⟨Nat.mod_lt _ (by omega), hp⟩, within_nil⟩⟩
    rw [checkTmrAccesses, List.findSome?_cons]
    rcases hout : outvoted c s p n r with _ | _ | v
    · simp only [within_append, hpair, true_and]
      exact ih hrs
    · simp only [within_append, hpair, true_and]
      exact iff_of_true (within_sendPipe s hp r) (.inl rfl)
    · obtain rfl := outvoted_eq_some hout
      simp only [within_append, hpair, true_and]
      rw [within_restartPrep_iff h hr (Nat.mod_lt _ (by omega)) (by rw [hthree]; omega) sched]
      simp

theorem within_checkSDC_iff (h : Counted c s.counts) (hp : p < c.pipeCount)
    (sched : ℕ → ℕ → Bool) : Within c (checkSDCAccesses c s p sched) ↔
      checkSDCRestarts c s p = none ∨ pipeLimit ≤ c.pipeCount := by
  simp only [checkSDCAccesses, checkSDCRestarts, within_append, within_bytesReady hp, true_and]
  split
  · exact iff_of_true within_nil (.inl rfl)
  cases htype : c.repType with
  | none | repTypeError => exact iff_of_true within_nil (.inl rfl)
  | smr => exact iff_of_true (within_sendPipe s hp 0) (.inl rfl)
  | dmr =>
    have htwo : c.repCount = 2 := by rw [Config.repCount, htype]; rfl
    refine iff_of_true (within_append.mpr ⟨?_, within_sendPipe s hp 0⟩) (.inl rfl)
    exact within_cons.mpr ⟨⟨by omega, hp⟩, within_cons.mpr ⟨⟨by omega, hp⟩, within_nil⟩⟩
  | tmr => exact within_checkTmr_iff h htype hp _ sched fun r hr => List.mem_range.mp hr

/-! ### Steps -/

/-- The voter works on pipes that exist. -/
def Point.OnPipes (c : Config) : Point → Prop
  | .scan _ todo => ∀ x ∈ todo, x ∈ rounds c
  | .blocked p r _ todo => (p, r) ∈ rounds c ∧ ∀ x ∈ todo, x ∈ rounds c
  | .vote p _ todo => p < c.pipeCount ∧ ∀ x ∈ todo, x ∈ rounds c
  | _ => True

/-- What the accesses depend on. -/
structure Sized (c : Config) (s : State) : Prop where
  counted : Counted c s.counts
  timer : s.currentTimer < 2
  point : s.point.OnPipes c

theorem currentTimer_startTimer (timerIndex : ℕ → ℕ) (h : s.currentTimer < 2) (p : ℕ) :
    (startTimer timerIndex s p).currentTimer < 2 := by
  simp only [startTimer]
  split_ifs
  · exact h
  · exact Nat.zero_lt_two
  · exact Nat.one_lt_two
  · exact h

/-- The arrays and the timer, without the point. -/
def Held (c : Config) (s : State) : Prop := Counted c s.counts ∧ s.currentTimer < 2

theorem Held.of_shape (h : Held c s) (hshape : t.shape Replica.pipeCount = s.shape Replica.pipeCount) :
    Held c t := by
  have hcounts : t.counts = s.counts := congrArg Prod.fst hshape
  have htimer : t.currentTimer = s.currentTimer := congrArg Prod.snd hshape
  rw [Held, hcounts, htimer]
  exact h

theorem Held.startTimer (h : Held c s) (timerIndex : ℕ → ℕ) (p : ℕ) :
    Held c (startTimer timerIndex s p) :=
  ⟨by rw [counts_startTimer]; exact h.1, currentTimer_startTimer timerIndex h.2 p⟩

theorem Held.processData (h : Held c s) (p : ℕ) (sched : ℕ → Bool) :
    Held c (processData c s p sched) :=
  (h.startTimer c.timerStartIndex p).of_shape (shape_processData .pipeCount ..)

theorem Held.restartPrep (h : Held c s) (hu : u < c.repCount) (huv : u ≠ v)
    (sched : ℕ → ℕ → Bool) : Held c (restartPrep c s v u sched) := by
  have hstolen : Held c { stealPipes s u with timerStarted := false } :=
    h.of_shape (shape_stealPipes Replica.pipeCount s u)
  have hrestarted : Held c (restartReplica c { stealPipes s u with timerStarted := false } u v
      sched) := ⟨counted_restartReplica hstolen.1 hu huv sched, hstolen.2⟩
  refine hrestarted.of_shape ?_
  simp only [VoterD.restartPrep, shape_returnPipes]
  exact loop_proj (State.shape Replica.pipeCount) (shape_copyAndSend .pipeCount c v u) ..

theorem currentTimer_startReplicas (c : Config) (s : State) :
    (startReplicas c s).currentTimer = s.currentTimer := by
  refine (loop_proj State.currentTimer (fun r s => ?_) ..).trans
    ((loop_proj State.currentTimer (fun r s => ?_) ..).trans
      (loop_proj State.currentTimer (fun r s => ?_) ..)) <;> rfl

theorem Held.voterRestartHandler (h : Held c s) (sched : ℕ → ℕ → Bool) :
    Held c (voterRestartHandler c s sched) := by
  have hrestart : 2 ≤ c.repCount → Held c (VoterD.restartPrep c s
      (behindRep s.replicas c.repCount (c.timerStopIndex s.currentTimer))
      ((behindRep s.replicas c.repCount (c.timerStopIndex s.currentTimer) + (c.repCount - 1)) %
        c.repCount) sched) := by
    intro hcount
    have hpos : 0 < c.repCount := by omega
    have hv := behindRep_lt s.replicas (c.timerStopIndex s.currentTimer) hpos
    obtain ⟨hu, huv⟩ := restarter_lt hv hcount
    exact h.restartPrep hu huv sched
  cases htype : c.repType with
  | none | repTypeError =>
    simp only [VoterD.voterRestartHandler, htype]
    exact h
  | smr =>
    simp only [VoterD.voterRestartHandler, htype]
    have hstarted : Held c (startReplicas c { s with fds := cleanupReplica (s.replicas 0) s.fds }) :=
      ⟨counted_startReplicas c _, by rw [currentTimer_startReplicas]; exact h.2⟩
    refine loop_induction (fun _ t => Held c t) hstarted fun p _ t ht => ?_
    split
    · exact ht.processData p _
    · exact ht
  | dmr =>
    have htwo : c.repCount = 2 := by rw [Config.repCount, htype]; rfl
    simp only [VoterD.voterRestartHandler, htype]
    exact hrestart (by omega)
  | tmr =>
    have hthree : c.repCount = 3 := by rw [Config.repCount, htype]; rfl
    simp only [VoterD.voterRestartHandler, htype]
    exact hrestart (by omega)

theorem Held.checkTmr (h : Held c s) (htype : c.repType = .tmr) {n : ℕ} (hr : r < c.repCount)
    (sched : ℕ → ℕ → Bool) (ht : t ∈ checkTmr c s p n r sched) : Held c t := by
  have hthree : c.repCount = 3 := by rw [Config.repCount, htype]; rfl
  rw [VoterD.checkTmr] at ht
  split_ifs at ht
  · obtain rfl := Option.some.inj ht
    exact h.restartPrep hr (by rw [hthree]; omega) sched
  · obtain rfl := Option.some.inj ht
    exact h.of_shape (shape_sendPipe .pipeCount ..)
  · cases ht

theorem Held.checkSDC (h : Held c s) (p : ℕ) (sched : ℕ → ℕ → Bool) :
    Held c (checkSDC c s p sched) := by
  simp only [VoterD.checkSDC]
  split
  · exact h
  cases htype : c.repType with
  | none | repTypeError => exact h
  | smr | dmr => exact h.of_shape (shape_sendPipe .pipeCount ..)
  | tmr =>
    dsimp only
    rcases hfound : (List.range c.repCount).findSome? fun r => VoterD.checkTmr c s p
      (bytesReady s.replicas c.repCount p) r sched with _ | t
    · exact h
    · obtain ⟨r, hr, ht⟩ := List.exists_of_findSome?_eq_some hfound
      exact h.checkTmr htype (List.mem_range.mp hr) sched ht

theorem sized_readReplica (h : Held c s) (ready : List ℕ) {todo : List (ℕ × ℕ)}
    (hp : p < c.pipeCount) (htodo : ∀ x ∈ todo, x ∈ rounds c) :
    Sized c (readReplica s p r ready todo) := by
  obtain ⟨hcounted, htimer⟩ := h.of_shape (shape_readReplica .pipeCount s p r ready todo)
  refine ⟨hcounted, htimer, ?_⟩
  simp only [readReplica]
  split
  · exact ⟨hp, htodo⟩
  · exact htodo

/-- **The invariant.** -/
theorem sized_step (hs : Sized c s) {a : Act} (ht : t ∈ step c s a) : Sized c t := by
  have hheld : Held c s := ⟨hs.counted, hs.timer⟩
  cases a with
  | update sched =>
    cases hpoint : s.point <;> simp only [step, hpoint, Option.mem_def, Option.some.injEq,
      reduceCtorEq] at ht
    subst ht
    have hchecked : Held c (checkTimer c s sched) := by
      rw [checkTimer]
      split
      · exact hheld.voterRestartHandler sched
      · exact hheld
    exact ⟨hchecked.1, hchecked.2, trivial⟩
  | select =>
    cases hpoint : s.point <;> simp only [step, hpoint, Option.mem_def, reduceCtorEq] at ht
    split at ht
    · obtain rfl := Option.some.inj ht
      exact ⟨hs.counted, hs.timer, trivial⟩
    · obtain rfl := Option.some.inj ht
      exact ⟨hs.counted, hs.timer, trivial⟩
  | external sched =>
    cases hpoint : s.point <;> simp only [step, hpoint, Option.mem_def, Option.some.injEq,
      reduceCtorEq] at ht
    rename_i ready
    subst ht
    have hread : ∀ p, Held c (readExternal c s p sched) := by
      intro p
      rcases shape_readExternal .pipeCount c s p sched with h | h
      · exact hheld.of_shape h
      · exact (hheld.startTimer _ p).of_shape h
    rcases externalPipe c ready with _ | p
    · exact ⟨hs.counted, hs.timer, fun x hx => hx⟩
    · exact ⟨(hread p).1, (hread p).2, fun x hx => hx⟩
  | scan =>
    cases hpoint : s.point <;> simp only [step, hpoint, Option.mem_def, reduceCtorEq] at ht
    rename_i ready todo
    have honPipes := hs.point
    rw [hpoint] at honPipes
    rcases todo with _ | ⟨⟨p, r⟩, todo⟩
    · obtain rfl := Option.some.inj ht
      exact ⟨hs.counted, hs.timer, trivial⟩
    · obtain ⟨hround, htodo⟩ := List.forall_mem_cons.mp honPipes
      have hstarted := hheld.startTimer c.timerStopIndex p
      dsimp only at ht
      split_ifs at ht
      · obtain rfl := Option.some.inj ht
        exact ⟨hstarted.1, hstarted.2, hround, htodo⟩
      · obtain rfl := Option.some.inj ht
        exact sized_readReplica hstarted ready (mem_rounds.mp hround).1 htodo
      · obtain rfl := Option.some.inj ht
        exact ⟨hs.counted, hs.timer, htodo⟩
  | wake =>
    cases hpoint : s.point <;> simp only [step, hpoint, Option.mem_def, reduceCtorEq] at ht
    have honPipes := hs.point
    rw [hpoint] at honPipes
    split at ht
    · cases ht
    · obtain rfl := Option.some.inj ht
      exact sized_readReplica hheld _ (mem_rounds.mp honPipes.1).1 honPipes.2
  | vote sched =>
    cases hpoint : s.point <;> simp only [step, hpoint, Option.mem_def, Option.some.injEq,
      reduceCtorEq] at ht
    subst ht
    have honPipes := hs.point
    rw [hpoint] at honPipes
    have hvoted := fun p =>
      (hheld.of_shape (shape_balance .pipeCount c s (sched 0))).checkSDC p sched
    exact ⟨(hvoted _).1, (hvoted _).2, honPipes.2⟩
  | replicaWrites | replicaReads | externalWrites =>
    simp only [step, Option.mem_def, Option.ite_none_right_eq_some, Option.some.injEq] at ht
    obtain ⟨-, rfl⟩ := ht
    exact ⟨hs.counted, hs.timer, hs.point⟩
  | tick d =>
    obtain rfl := Option.some.inj ht
    exact ⟨hs.counted, hs.timer, hs.point⟩

theorem within_checkSync_iff :
    Within c (checkSyncAccesses c) ↔ 0 < c.repCount ∨ c.pipeCount = 0 := by
  simp only [checkSyncAccesses, within_flatMap_range, within_cons, within_map_range]
  constructor
  · intro h
    rcases Nat.eq_zero_or_pos c.pipeCount with hzero | hpos
    · exact .inr hzero
    · exact .inl (h 0 hpos).1.1
  · rintro h p hp
    have hcount : 0 < c.repCount := h.resolve_right (by omega)
    exact ⟨⟨hcount, hp⟩, fun r hr => ⟨by omega, hp⟩⟩

theorem within_watch (c : Config) (s : State) : Within c (watchAccesses c s) :=
  within_append.mpr ⟨within_ite (fun _ => within_map_range.mpr fun _ hp => hp)
    fun _ => within_nil, within_flatMap_range.mpr fun _ hp =>
      within_map_range.mpr fun _ hr => ⟨hr, hp⟩⟩

theorem within_external (h : Counted c s.counts) (ready : List ℕ) :
    Within c (externalAccesses c s ready) := by
  rw [externalAccesses]
  rcases hfound : externalPipe c ready with _ | p
  · exact within_map_range.mpr fun _ hp => hp
  · have hp : p < c.pipeCount := List.mem_range.mp (List.mem_of_find?_eq_some hfound)
    refine within_append.mpr ⟨within_map_range.mpr fun i hi => ?_, within_ite
      (fun _ => within_nil) fun _ => ?_⟩
    · exact (Nat.lt_succ_iff.mp hi).trans_lt hp
    · exact within_processData h hp

/-- **One step** stays within the arrays exactly if it is harmless. -/
theorem within_step_iff (hs : Sized c s) (hexist : TimersExist c) (a : Act) :
    Within c (stepAccesses c s a) ↔ Harmless c s a := by
  have hquiet : ∀ {a : Act}, ¬ Begins s a → restarts c s a = none → Harmless c s a :=
    fun hbegins hnone => ⟨fun h => absurd h hbegins, .inl hnone⟩
  have hother : ∀ {a : Act}, (∀ sched, a ≠ .update sched) → ¬ Begins s a := by
    rintro a hne ⟨-, sched, rfl⟩
    exact hne sched rfl
  cases a with
  | update sched =>
    by_cases hpoint : s.point = .update
    · have hbegins : Begins s (.update sched) := ⟨hpoint, sched, rfl⟩
      have haccesses : stepAccesses c s (.update sched) =
          (if Expired c s then voterRestartHandlerAccesses c s sched else []) ++
            checkSyncAccesses c ++ watchAccesses c (checkTimer c s sched) := by
        simp only [stepAccesses, hpoint]
      rw [haccesses, within_append, within_append, within_checkSync_iff,
        and_iff_left (within_watch c _), and_comm, Harmless, forall_prop_of_true hbegins]
      refine and_congr_right fun _ => ?_
      simp only [restarts, hpoint]
      split
      · rw [within_voterRestartHandler_iff hs.counted hs.timer hexist]
        cases c.repType <;> simp
      · exact iff_of_true within_nil (.inl rfl)
    · have hnone : stepAccesses c s (.update sched) = [] ∧ restarts c s (.update sched) = none := by
        cases h : s.point <;> simp_all [stepAccesses, restarts]
      rw [hnone.1]
      exact iff_of_true within_nil (hquiet (fun h => hpoint h.1) hnone.2)
  | external sched =>
    refine iff_of_true ?_ (hquiet (hother (by simp)) rfl)
    rw [stepAccesses]
    split
    · exact within_external hs.counted _
    · exact within_nil
  | scan =>
    refine iff_of_true ?_ (hquiet (hother (by simp)) rfl)
    rw [stepAccesses]
    split
    · rename_i ready p r todo hpoint
      have hround : (p, r) ∈ rounds c := by
        have honPipes := hs.point
        rw [hpoint] at honPipes
        exact honPipes _ List.mem_cons_self
      obtain ⟨hp, hr⟩ := mem_rounds.mp hround
      exact within_cons.mpr ⟨⟨hr, hp⟩, within_ite
        (fun _ => within_timer .timerStopIndex (fun _ hk => hk) _ _) fun _ => within_nil⟩
    · exact within_nil
  | wake =>
    refine iff_of_true ?_ (hquiet (hother (by simp)) rfl)
    rw [stepAccesses]
    split
    · rename_i p r _ _ hpoint
      have hround : (p, r) ∈ rounds c := by
        have honPipes := hs.point
        rw [hpoint] at honPipes
        exact honPipes.1
      obtain ⟨hp, hr⟩ := mem_rounds.mp hround
      exact within_cons.mpr ⟨⟨hr, hp⟩, within_nil⟩
    · exact within_nil
  | vote sched =>
    have hbegins : ¬ Begins s (.vote sched) := hother (by simp)
    by_cases hvote : ∃ p ready todo, s.point = .vote p ready todo
    · obtain ⟨p, ready, todo, hpoint⟩ := hvote
      have haccesses : stepAccesses c s (.vote sched) =
          balanceAccesses c s ++ checkSDCAccesses c (balance c s (sched 0)) p sched := by
        simp only [stepAccesses, hpoint]
      have hrestarts : restarts c s (.vote sched) =
          checkSDCRestarts c (balance c s (sched 0)) p := by
        simp only [restarts, hpoint]
      have hp : p < c.pipeCount := by
        have honPipes := hs.point
        rw [hpoint] at honPipes
        exact honPipes.1
      have hbalanced : Held c (balance c s (sched 0)) :=
        Held.of_shape ⟨hs.counted, hs.timer⟩ (shape_balance .pipeCount ..)
      rw [haccesses, Harmless, hrestarts, within_append, within_checkSDC_iff hbalanced.1 hp,
        and_iff_right (within_balance hs.counted)]
      exact ⟨fun h => ⟨fun hb => absurd hb hbegins, h⟩, And.right⟩
    · have hnone : stepAccesses c s (.vote sched) = [] ∧ restarts c s (.vote sched) = none := by
        cases h : s.point <;> simp_all [stepAccesses, restarts]
      rw [hnone.1]
      exact iff_of_true within_nil (hquiet hbegins hnone.2)
  | select | replicaWrites | replicaReads | externalWrites | tick =>
    exact iff_of_true within_nil (hquiet (hother (by simp)) rfl)

/-! ### Start-up -/

/-- Counting the entries that come before. -/
theorem forall_length_filter_lt_iff (q : ℕ → Bool) (m n : ℕ) :
    (∀ i < n, q i = true → ((List.range i).filter q).length < m) ↔
      ((List.range n).filter q).length ≤ m := by
  induction n with
  | zero => simp
  | succ n ih =>
    have hsplit : (∀ i < n + 1, q i = true → ((List.range i).filter q).length < m) ↔
        ((List.range n).filter q).length ≤ m ∧
          (q n = true → ((List.range n).filter q).length < m) := by
      rw [← ih]
      constructor
      · exact fun h => ⟨fun i hi => h i (by omega), h n n.lt_succ_self⟩
      · rintro ⟨hbefore, hlast⟩ i hi
        rcases Nat.lt_succ_iff_lt_or_eq.mp hi with hlt | rfl
        · exact hbefore i hlt
        · exact hlast
    rw [hsplit, List.range_succ, List.filter_append, List.length_append]
    by_cases hq : q n = true
    · simp [hq]
      omega
    · simp [hq]

/-- The loop of `parseArgs` stays within the timer arrays as long as two pipes of each direction
are timed. -/
theorem within_parseArgs_iff : Within c (parseArgsAccesses c.extPipes c.pipeCount) ↔
    c.timedIn.length ≤ 2 ∧ c.timedOut.length ≤ 2 := by
  -- a round enters its pipe behind the timed ones before it
  have hround : ∀ i, Within c (if (c.extPipes i).timed then
      if (c.extPipes i).fdIn ≠ 0 then
        [.timerStartIndex (timedPipes c.extPipes i true).length]
      else [.timerStopIndex (timedPipes c.extPipes i false).length]
    else []) ↔
      (((c.extPipes i).timed && decide ((c.extPipes i).fdIn ≠ 0) == true) = true →
        (timedPipes c.extPipes i true).length < 2) ∧
      (((c.extPipes i).timed && decide ((c.extPipes i).fdIn ≠ 0) == false) = true →
        (timedPipes c.extPipes i false).length < 2) := by
    intro i
    by_cases htimed : (c.extPipes i).timed = true
    · by_cases hin : (c.extPipes i).fdIn = 0
      · simp [htimed, hin, Access.InBounds]
      · simp [htimed, hin, Access.InBounds]
    · simp [htimed]
  rw [Config.timedIn, Config.timedOut, timedPipes, timedPipes, ← forall_length_filter_lt_iff,
    ← forall_length_filter_lt_iff, ← forall₂_and]
  simp only [parseArgsAccesses, within_append, within_map_range, within_flatMap_range, within_cons,
    indexTimers_eq, hround]
  exact ⟨fun h i hi => (h.2 i hi).2, fun h => ⟨fun i hi => hi, fun i hi => ⟨hi, h i hi⟩⟩⟩

/-- `initVoterD` uses the arrays as they were allocated. -/
theorem within_initVoterD (vots : ℕ → ℕ → VotePipe) (fds : List ℕ) (now : ℕ) :
    Within c (initVoterDAccesses c (boot vots fds now)) :=
  within_append.mpr ⟨within_append.mpr ⟨within_startReplicas fun _ _ => Nat.zero_le _,
    within_map_range.mpr fun _ hp => hp⟩, within_flatMap_range.mpr fun r hr =>
      within_slot (counted_startReplicas c _ r hr).le hr⟩

theorem sized_initVoterD (vots : ℕ → ℕ → VotePipe) (fds : List ℕ) (now : ℕ) :
    Sized c (initVoterD c (boot vots fds now)) := by
  have hstarted : Held c (startReplicas c (boot vots fds now)) :=
    ⟨counted_startReplicas c _, by rw [currentTimer_startReplicas]; exact Nat.zero_lt_two⟩
  obtain ⟨hcounted, htimer⟩ := hstarted.of_shape (shape_touchPipes .pipeCount c _)
  refine ⟨hcounted, htimer, ?_⟩
  have hpoint : (initVoterD c (boot vots fds now)).point = .update := by
    refine (touched_touchPipes c _).point.trans ((loop_proj State.point (fun r s => ?_) ..).trans
      ((loop_proj State.point (fun r s => ?_) ..).trans
        (loop_proj State.point (fun r s => ?_) ..))) <;> rfl
  rw [hpoint]
  trivial

theorem timersExist_parseArgs (type : String) (timeout priority : ℤ) (pipes : List PipeArg)
    (memory : ℕ → VotePipe) : TimersExist (parseArgs type timeout priority pipes memory) := by
  intro k hpos
  have hindex : (parseArgs type timeout priority pipes memory).timerStopIndex =
      timerArray (parseArgs type timeout priority pipes memory).timedOut :=
    congrArg TimerArrays.timerStopIndex (indexTimers_eq ..)
  rw [hindex, timerArray]
  rcases hk : (parseArgs type timeout priority pipes memory).timedOut[k]? with _ | p
  · exact hpos
  · exact List.mem_range.mp (List.mem_of_mem_filter (List.mem_of_getElem? hk))

/-! ### Runs -/

/-- **The arrays.** For any arguments, start-up and any run keep within the arrays exactly if at
most two inputs and two outputs are timed, and every step is harmless. -/
theorem overruns_iff (type : String) (timeout priority : ℤ) (pipes : List PipeArg)
    (memory : ℕ → VotePipe) (vots : ℕ → ℕ → VotePipe) (fds : List ℕ) (now : ℕ) (as : List Act) :
    let c := parseArgs type timeout priority pipes memory
    (Within c (parseArgsAccesses c.extPipes c.pipeCount) ∧
        Within c (initVoterDAccesses c (boot vots fds now)) ∧
        AllSteps (step c) (fun s a => Within c (stepAccesses c s a)) as
          (initVoterD c (boot vots fds now))) ↔
      c.timedIn.length ≤ 2 ∧ c.timedOut.length ≤ 2 ∧
        AllSteps (step c) (Harmless c) as (initVoterD c (boot vots fds now)) := by
  intro c
  have hexist : TimersExist c := timersExist_parseArgs type timeout priority pipes memory
  have hsteps : ∀ (as : List Act) (s : State), Sized c s →
      (AllSteps (step c) (fun s a => Within c (stepAccesses c s a)) as s ↔
        AllSteps (step c) (Harmless c) as s) := by
    intro as
    induction as with
    | nil => exact fun _ _ => Iff.rfl
    | cons a as ih =>
      intro s hs
      refine and_congr (within_step_iff hs hexist a) ?_
      exact forall₂_congr fun t ht => ih t (sized_step hs ht)
  rw [within_parseArgs_iff, hsteps as _ (sized_initVoterD vots fds now), and_assoc]
  exact and_congr_right fun _ => and_congr_right fun _ =>
    and_iff_right (within_initVoterD vots fds now)

/-- Three timed inputs. -/
def threeTimed : Config :=
  parseArgs "TMR" 1200 30 [⟨"WAY_RES", 3, 0, true⟩, ⟨"MAP_UPDATE", 4, 0, true⟩,
    ⟨"RANGE_POSE_DATA", 5, 0, true⟩] fun _ => zeroPipe

/-- A third timed input is entered behind `timer_start_index`, and a restart with two pipes frees
eight pointers behind its buffers. -/
theorem overruns_found :
    ¬ Within threeTimed (parseArgsAccesses threeTimed.extPipes threeTimed.pipeCount) ∧
    ¬ AllSteps (step rangerConfig) (fun s a => Within rangerConfig (stepAccesses rangerConfig s a))
      secondOutvoted (initVoterD rangerConfig (boot (fun _ _ => zeroPipe) (List.range 6) 0)) ∧
    Access.restarterBuffer 9 ∈ stepAccesses rangerConfig
      (follow (step rangerConfig) (secondOutvoted.dropLast)
        (initVoterD rangerConfig (boot (fun _ _ => zeroPipe) (List.range 6) 0))) (.vote granted) ∧
    rangerConfig.pipeCount = 2 := by
  refine ⟨by decide +kernel, by decide +kernel, by decide +kernel, by decide +kernel⟩

end S3RES.VoterD
