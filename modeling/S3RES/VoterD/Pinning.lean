import S3RES.Foundations.Recorder
import S3RES.VoterD.Alignment
import S3RES.VoterD.Fields

/-!
# The core of each replica

`initReplicas` pins the replica with index `i` of the array it is given to core `i + 1`.
`startReplicas` hands it the whole array, `restartReplica` the one slot that is refilled, which
is then index `0`. The core goes out to the process in the slot with the descriptors;
`stepSends` lists what a step sends, and `pinned_iff` says when all of them are the right ones.
-/

namespace S3RES.VoterD

open Loop Memory StepSystem

/-! ### What is sent -/

/-- The core in the record of each replica. -/
def State.cpus (s : State) (r : ℕ) : ℤ := (s.replicas r).pinnedCpu

/-- What `acceptSendFDS` sends in `restartReplica`: the slot and its core, as they are once its
pipes are made. -/
def restartReplicaSends (c : Config) (s : State) (restarter restartee : ℕ)
    (sched : ℕ → ℕ → Bool) : List (ℕ × ℤ) :=
  let s := { s with fds := cleanupReplica (s.replicas restartee) s.fds }
  let s := { s with replicas := favour c restarter restartee (sched 1) s.replicas }
  let s := reinit c s restartee 0
  let s := newPipes c s restartee (s.replicas restarter).pipeCount
  [(restartee, s.cpus restartee)]

/-- What is sent during `restart_prep`. -/
def restartPrepSends (c : Config) (s : State) (restartee restarter : ℕ)
    (sched : ℕ → ℕ → Bool) : List (ℕ × ℤ) :=
  let s := stealPipes s restarter
  let s := { s with timerStarted := false }
  restartReplicaSends c s restarter restartee sched

/-- What `acceptSendFDS` sends in `startReplicas`. -/
def startReplicasSends (c : Config) (s : State) : List (ℕ × ℤ) :=
  let s := loop (fun r s => reinit c s r r) c.repCount s
  let s := loop (fun r s => newPipes c s r c.pipeCount) c.repCount s
  (List.range c.repCount).map fun r => (r, s.cpus r)

/-- What is sent during `voterRestartHandler`. -/
def voterRestartHandlerSends (c : Config) (s : State) (sched : ℕ → ℕ → Bool) : List (ℕ × ℤ) :=
  match c.repType with
  | .smr => startReplicasSends c { s with fds := cleanupReplica (s.replicas 0) s.fds }
  | .dmr | .tmr =>
    let restartee := behindRep s.replicas c.repCount (c.timerStopIndex s.currentTimer)
    let restarter := (restartee + (c.repCount - 1)) % c.repCount
    restartPrepSends c s restartee restarter sched
  | _ => []

/-- The slot that the TMR loop restarts in the round at `rIndex`, if that round ends it. -/
def outvoted (c : Config) (s : State) (pipeNum bytesAvail rIndex : ℕ) : Option (Option ℕ) :=
  if compareBuffs (s.vot rIndex pipeNum) (s.vot ((rIndex + 1) % c.repCount) pipeNum)
      bytesAvail = 0 then
    if compareBuffs (s.vot rIndex pipeNum) (s.vot ((rIndex + 2) % c.repCount) pipeNum)
        bytesAvail ≠ 0 then
      some (some ((rIndex + 2) % c.repCount))
    else some none
  else none

/-- What is sent in that round. -/
def checkTmrSends (c : Config) (s : State) (pipeNum bytesAvail rIndex : ℕ)
    (sched : ℕ → ℕ → Bool) : Option (List (ℕ × ℤ)) :=
  (outvoted c s pipeNum bytesAvail rIndex).map fun restartee =>
    match restartee with
    | some restartee => restartPrepSends c s restartee rIndex sched
    | none => []

/-- What is sent during `checkSDC`. -/
def checkSDCSends (c : Config) (s : State) (pipeNum : ℕ) (sched : ℕ → ℕ → Bool) :
    List (ℕ × ℤ) :=
  let bytesAvail := bytesReady s.replicas c.repCount pipeNum
  if bytesAvail = 0 then []
  else
    match c.repType with
    | .tmr =>
      ((List.range c.repCount).findSome? fun rIndex =>
        checkTmrSends c s pipeNum bytesAvail rIndex sched).getD []
    | _ => []

/-- What a step sends. -/
def stepSends (c : Config) (s : State) : Act → List (ℕ × ℤ)
  | .update sched =>
    match s.point with
    | .update => if Expired c s then voterRestartHandlerSends c s sched else []
    | _ => []
  | .vote sched =>
    match s.point with
    | .vote p _ _ => checkSDCSends c (balance c s (sched 0)) p sched
    | _ => []
  | _ => []

/-- The core each process has been sent last. -/
def deliver (sends : List (ℕ × ℤ)) (sent : ℕ → ℤ) : ℕ → ℤ :=
  sends.foldl (fun sent send => Function.update sent send.1 send.2) sent

/-- The cores sent so far, next to a run. -/
def noteSends (c : Config) (s : State) (a : Act) (sent : ℕ → ℤ) : ℕ → ℤ :=
  deliver (stepSends c s a) sent

/-! ### Which slot is restarted -/

/-- The slot that a vote restarts. -/
def checkSDCRestarts (c : Config) (s : State) (pipeNum : ℕ) : Option ℕ :=
  let bytesAvail := bytesReady s.replicas c.repCount pipeNum
  if bytesAvail = 0 then none
  else
    match c.repType with
    | .tmr =>
      ((List.range c.repCount).findSome? fun rIndex =>
        outvoted c s pipeNum bytesAvail rIndex).getD none
    | _ => none

/-- The slot that a step refills with a fork. -/
def restarts (c : Config) (s : State) : Act → Option ℕ
  | .update _ =>
    match s.point with
    | .update =>
      if Expired c s then
        match c.repType with
        | .dmr | .tmr =>
          some (behindRep s.replicas c.repCount (c.timerStopIndex s.currentTimer))
        | _ => none
      else none
    | _ => none
  | .vote sched =>
    match s.point with
    | .vote p _ _ => checkSDCRestarts c (balance c s (sched 0)) p
    | _ => none
  | _ => none

variable {c : Config} {s t : State} {u v p : ℕ}

/-! ### The cores after each function -/

theorem cpus_of_shape (h : t.shape Replica.pinnedCpu = s.shape Replica.pinnedCpu) :
    t.cpus = s.cpus := congrArg Prod.fst h

@[simp] theorem cpus_setVot (s : State) (r p : ℕ) (pipe : VotePipe) :
    (s.setVot r p pipe).cpus = s.cpus := cpus_of_shape (shape_setVot .pinnedCpu ..)

@[simp] theorem cpus_setQueue (s : State) (r p : ℕ) (bytes : List UInt8) :
    (s.setQueue r p bytes).cpus = s.cpus := rfl

@[simp] theorem cpus_balance (c : Config) (s : State) (sched : ℕ → Bool) :
    (balance c s sched).cpus = s.cpus := cpus_of_shape (shape_balance .pinnedCpu ..)

theorem cpus_favour (c : Config) (u v : ℕ) (sched : ℕ → Bool) (reps : ℕ → Replica) (r : ℕ) :
    (favour c u v sched reps r).pinnedCpu = (reps r).pinnedCpu :=
  favour_proj Replica.pinnedCpu (fun _ _ => rfl) ..

/-- A slot is given the core behind the index it is initialised under. -/
@[simp] theorem cpus_reinit (c : Config) (s : State) (rep index : ℕ) :
    (reinit c s rep index).cpus = Function.update s.cpus rep (index + 1) := by
  funext r
  simp only [State.cpus, reinit]
  rcases eq_or_ne r rep with rfl | hr
  · rw [Function.update_self, Function.update_self]
    rfl
  · rw [Function.update_of_ne hr, Function.update_of_ne hr]
    rfl

@[simp] theorem cpus_newPipes (c : Config) (s : State) (rep n : ℕ) :
    (newPipes c s rep n).cpus = s.cpus := by
  funext r
  simp only [State.cpus, newPipes]
  rcases eq_or_ne r rep with rfl | hr
  · rw [Function.update_self]
    exact createPipes_proj Replica.pinnedCpu (fun _ _ _ _ _ => rfl) ..
  · rw [Function.update_of_ne hr]

@[simp] theorem cpus_writeBuffer (s : State) (r p : ℕ) (bytes : List UInt8) :
    (writeBuffer s r p bytes).cpus = s.cpus := rfl

@[simp] theorem cpus_startTimer (timerIndex : ℕ → ℕ) (s : State) (p : ℕ) :
    (startTimer timerIndex s p).cpus = s.cpus := by
  simp only [startTimer]
  split_ifs <;> rfl

@[simp] theorem cpus_processData (c : Config) (s : State) (p : ℕ) (sched : ℕ → Bool) :
    (processData c s p sched).cpus = s.cpus :=
  (cpus_of_shape (shape_processData .pinnedCpu ..)).trans (cpus_startTimer ..)

@[simp] theorem cpus_sendPipe (c : Config) (s : State) (p u : ℕ) :
    (sendPipe c s p u).cpus = s.cpus := cpus_of_shape (shape_sendPipe .pinnedCpu ..)

@[simp] theorem cpus_copyAndSend (c : Config) (v u i : ℕ) (s : State) :
    (copyAndSend c v u i s).cpus = s.cpus := cpus_of_shape (shape_copyAndSend .pinnedCpu ..)

theorem cpus_stealPipes (s : State) (rep : ℕ) : (stealPipes s rep).cpus = s.cpus :=
  cpus_of_shape (shape_stealPipes ..)

theorem cpus_returnPipes (s : State) (rep : ℕ) (buffer : ℕ → List UInt8) :
    (returnPipes s rep buffer).cpus = s.cpus := cpus_of_shape (shape_returnPipes ..)

/-- The record of the slot that is refilled is the only one to change, and is pinned to core 1. -/
theorem cpus_refill (c : Config) (s : State) (u v n : ℕ) (fds : List ℕ) (sched : ℕ → Bool) :
    (newPipes c (reinit c { s with fds := fds, replicas := favour c u v sched s.replicas } v 0)
      v n).cpus = Function.update s.cpus v 1 := by
  have hfavoured : State.cpus { s with fds := fds, replicas := favour c u v sched s.replicas } =
      s.cpus := funext fun r => cpus_favour c u v sched s.replicas r
  rw [cpus_newPipes, cpus_reinit, hfavoured]
  simp

/-- A restart pins the slot to core 1, and sends it that core. -/
theorem cpus_restartPrep (c : Config) (s : State) (v u : ℕ) (sched : ℕ → ℕ → Bool) :
    (restartPrep c s v u sched).cpus = Function.update s.cpus v 1 ∧
      restartPrepSends c s v u sched = [(v, 1)] := by
  have hrefill : ∀ n, (newPipes c (reinit c
      { stealPipes s u with
        timerStarted := false
        fds := cleanupReplica ((stealPipes s u).replicas v) (stealPipes s u).fds
        replicas := favour c u v (sched 1) (stealPipes s u).replicas } v 0) v n).cpus =
      Function.update s.cpus v 1 := fun n =>
    (cpus_refill c { stealPipes s u with timerStarted := false } ..).trans
      (congrArg (Function.update · v 1) (cpus_stealPipes s u))
  constructor
  · simp only [restartPrep, cpus_returnPipes]
    rw [loop_proj State.cpus (cpus_copyAndSend c v u)]
    simp only [restartReplica, cpus_balance]
    exact hrefill _
  · rw [restartPrepSends, restartReplicaSends]
    exact congrArg (fun cpu => [(v, cpu)]) ((congrFun (hrefill _) v).trans (Function.update_self ..))

/-- The first `n` slots on their own cores. -/
def ownCores (n : ℕ) (cpus : ℕ → ℤ) (r : ℕ) : ℤ := if r < n then r + 1 else cpus r

theorem ownCores_succ (n : ℕ) (cpus : ℕ → ℤ) :
    ownCores (n + 1) cpus = Function.update (ownCores n cpus) n (n + 1) := by
  funext r
  rcases lt_trichotomy r n with h | rfl | h
  · simp [ownCores, h.ne, h, h.trans n.lt_succ_self]
  · simp [ownCores]
  · simp [ownCores, h.ne', h.not_gt, show ¬ r < n + 1 by omega]

/-- A cold start pins every slot to its own core, and sends it that core. -/
theorem cpus_startReplicas (c : Config) (s : State) :
    (startReplicas c s).cpus = ownCores c.repCount s.cpus ∧
      startReplicasSends c s = (List.range c.repCount).map fun r : ℕ => (r, (r + 1 : ℤ)) := by
  have hinit : ∀ n, (loop (fun r s => reinit c s r r) n s).cpus = ownCores n s.cpus := by
    intro n
    refine loop_induction (fun n (t : State) => t.cpus = ownCores n s.cpus) rfl fun k _ t ht => ?_
    rw [cpus_reinit, ht, ownCores_succ]
  have hpipes : (loop (fun r s => newPipes c s r c.pipeCount) c.repCount
      (loop (fun r s => reinit c s r r) c.repCount s)).cpus = ownCores c.repCount s.cpus := by
    rw [loop_proj State.cpus (fun r s => cpus_newPipes c s r c.pipeCount), hinit]
  constructor
  · refine Eq.trans (loop_proj State.cpus (fun r s => ?_) ..) hpipes
    rfl
  · simp only [startReplicasSends, hpipes]
    refine List.map_congr_left fun r hr => ?_
    rw [ownCores, if_pos (List.mem_range.mp hr)]

/-- The cores are sent to the slots one after the other. -/
theorem deliver_range (n : ℕ) (sent : ℕ → ℤ) :
    deliver ((List.range n).map fun r : ℕ => (r, (r + 1 : ℤ))) sent = ownCores n sent := by
  induction n with
  | zero => rfl
  | succ n ih =>
    rw [deliver] at ih ⊢
    rw [List.range_succ, List.map_append, List.foldl_append, ih, ownCores_succ]
    rfl

theorem cpus_touchPipes (c : Config) (s : State) : (touchPipes c s).cpus = s.cpus :=
  cpus_of_shape (shape_touchPipes .pinnedCpu ..)

/-! ### The cores after a step -/

/-- What a step does to the cores: nothing, or it refills a slot from another one, or it starts
the only replica again. -/
inductive Repinned (c : Config) (s t : State) : List (ℕ × ℤ) → Option ℕ → Prop
  | kept (hcpus : t.cpus = s.cpus) : Repinned c s t [] none
  | refilled (v : ℕ) (hv : v < c.repCount) (hcpus : t.cpus = Function.update s.cpus v 1) :
    Repinned c s t [(v, 1)] (some v)
  | cold (hcount : c.repCount = 1) (hcpus : t.cpus = Function.update s.cpus 0 1) :
    Repinned c s t [(0, 1)] none

/-- A round of the TMR loop that ends it restarts the slot that is outvoted, or none. -/
theorem repinned_checkTmr (htype : c.repType = .tmr) (n r : ℕ) (sched : ℕ → ℕ → Bool) :
    (checkTmr c s p n r sched = none ∧ checkTmrSends c s p n r sched = none ∧
        outvoted c s p n r = none) ∨
      ∃ t sends v, checkTmr c s p n r sched = some t ∧ checkTmrSends c s p n r sched = some sends ∧
        outvoted c s p n r = some v ∧ Repinned c s t sends v := by
  have hcount : c.repCount = 3 := by rw [Config.repCount, htype]; rfl
  rw [checkTmr, checkTmrSends, outvoted]
  split_ifs with hagree hthird
  · have hrestart := cpus_restartPrep c s ((r + 2) % c.repCount) r sched
    refine .inr ⟨_, _, _, rfl, rfl, rfl, ?_⟩
    dsimp only
    rw [hrestart.2]
    exact .refilled _ (Nat.mod_lt _ (by omega)) hrestart.1
  · exact .inr ⟨_, _, _, rfl, rfl, rfl, .kept (cpus_sendPipe ..)⟩
  · exact .inl ⟨rfl, rfl, rfl⟩

/-- The first round that ends the TMR loop decides. -/
theorem repinned_rounds (htype : c.repType = .tmr) (n : ℕ) (sched : ℕ → ℕ → Bool)
    (rs : List ℕ) :
    Repinned c s ((rs.findSome? fun r => checkTmr c s p n r sched).getD s)
      ((rs.findSome? fun r => checkTmrSends c s p n r sched).getD [])
      ((rs.findSome? fun r => outvoted c s p n r).getD none) := by
  induction rs with
  | nil => exact .kept rfl
  | cons r rs ih =>
    rw [List.findSome?_cons, List.findSome?_cons, List.findSome?_cons]
    rcases repinned_checkTmr (s := s) (p := p) htype n r sched with
      ⟨hnone, hsends, hout⟩ | ⟨t, sends, v, hsome, hsends, hout, hrepinned⟩
    · rw [hnone, hsends, hout]
      exact ih
    · rw [hsome, hsends, hout]
      exact hrepinned

theorem repinned_checkSDC (c : Config) (s : State) (p : ℕ) (sched : ℕ → ℕ → Bool) :
    Repinned c s (checkSDC c s p sched) (checkSDCSends c s p sched) (checkSDCRestarts c s p) := by
  simp only [checkSDC, checkSDCSends, checkSDCRestarts]
  split
  · exact .kept rfl
  cases htype : c.repType with
  | none | repTypeError => exact .kept rfl
  | smr | dmr => exact .kept (cpus_sendPipe ..)
  | tmr => exact repinned_rounds htype _ sched _

theorem repinned_voterRestartHandler (c : Config) (sched : ℕ → ℕ → Bool) (hpoint : s.point = .update)
    (hexpired : Expired c s) :
    Repinned c s (voterRestartHandler c s sched) (voterRestartHandlerSends c s sched)
      (restarts c s (.update sched)) := by
  simp only [restarts, hpoint, if_pos hexpired]
  have hrestart := cpus_restartPrep c s
    (behindRep s.replicas c.repCount (c.timerStopIndex s.currentTimer))
    ((behindRep s.replicas c.repCount (c.timerStopIndex s.currentTimer) + (c.repCount - 1)) %
      c.repCount) sched
  have hlt : 0 < c.repCount → behindRep s.replicas c.repCount (c.timerStopIndex s.currentTimer) <
      c.repCount := behindRep_lt _ _
  cases htype : c.repType with
  | none | repTypeError =>
    simp only [voterRestartHandler, voterRestartHandlerSends, htype]
    exact .kept rfl
  | smr =>
    have hcount : c.repCount = 1 := by rw [Config.repCount, htype]; rfl
    have hcold := cpus_startReplicas c { s with fds := cleanupReplica (s.replicas 0) s.fds }
    simp only [voterRestartHandler, voterRestartHandlerSends, htype, hcold.2]
    rw [hcount] at hcold ⊢
    refine .cold hcount ?_
    rw [loop_proj State.cpus fun p s => ?_, hcold.1, ownCores_succ]
    · rfl
    · split
      · rw [cpus_processData]
      · rfl
  | dmr =>
    have hcount : c.repCount = 2 := by rw [Config.repCount, htype]; rfl
    simp only [voterRestartHandler, voterRestartHandlerSends, htype]
    rw [hrestart.2]
    exact .refilled _ (hlt (by omega)) hrestart.1
  | tmr =>
    have hcount : c.repCount = 3 := by rw [Config.repCount, htype]; rfl
    simp only [voterRestartHandler, voterRestartHandlerSends, htype]
    rw [hrestart.2]
    exact .refilled _ (hlt (by omega)) hrestart.1

/-- The cores do not change unless a replica is started. -/
theorem Repinned.congr {s' t' : State} {sends : List (ℕ × ℤ)} {v : Option ℕ}
    (h : Repinned c s t sends v) (hs : s'.cpus = s.cpus) (ht : t'.cpus = t.cpus) :
    Repinned c s' t' sends v := by
  cases h with
  | kept hcpus => exact .kept (ht.trans (hcpus.trans hs.symm))
  | refilled v hv hcpus => exact .refilled v hv (ht.trans (hcpus.trans (by rw [hs])))
  | cold hcount hcpus => exact .cold hcount (ht.trans (hcpus.trans (by rw [hs])))

theorem cpus_readReplica (s : State) (p r : ℕ) (ready : List ℕ) (todo : List (ℕ × ℕ)) :
    (readReplica s p r ready todo).cpus = s.cpus :=
  cpus_of_shape (shape_readReplica .pinnedCpu ..)

theorem cpus_readExternal (c : Config) (s : State) (p : ℕ) (sched : ℕ → ℕ → Bool) :
    (readExternal c s p sched).cpus = s.cpus := by
  rcases shape_readExternal .pinnedCpu c s p sched with h | h
  · exact cpus_of_shape h
  · exact (cpus_of_shape h).trans (cpus_startTimer ..)

/-- Every step. -/
theorem repinned_step {a : Act} (ht : t ∈ step c s a) :
    Repinned c s t (stepSends c s a) (restarts c s a) := by
  cases a with
  | update sched =>
    cases hpoint : s.point <;> simp only [step, hpoint, Option.mem_def, Option.some.injEq,
      reduceCtorEq] at ht
    subst ht
    refine Repinned.congr (t := checkTimer c s sched) ?_ rfl rfl
    by_cases hexpired : Expired c s
    · have hsends : stepSends c s (.update sched) = voterRestartHandlerSends c s sched := by
        simp only [stepSends, hpoint, if_pos hexpired]
      rw [checkTimer, if_pos hexpired, hsends]
      exact repinned_voterRestartHandler c sched hpoint hexpired
    · simp only [checkTimer, stepSends, restarts, hpoint, if_neg hexpired]
      exact .kept rfl
  | select =>
    cases hpoint : s.point <;> simp only [step, hpoint, Option.mem_def, reduceCtorEq] at ht
    split at ht
    · obtain rfl := Option.some.inj ht
      exact .kept rfl
    · obtain rfl := Option.some.inj ht
      exact .kept rfl
  | external sched =>
    cases hpoint : s.point <;> simp only [step, hpoint, Option.mem_def, Option.some.injEq,
      reduceCtorEq] at ht
    subst ht
    refine .kept ?_
    split
    · exact cpus_readExternal ..
    · rfl
  | scan =>
    cases hpoint : s.point <;> simp only [step, hpoint, Option.mem_def, reduceCtorEq] at ht
    rename_i ready todo
    rcases todo with _ | ⟨⟨p, r⟩, todo⟩
    · obtain rfl := Option.some.inj ht
      exact .kept rfl
    · dsimp only at ht
      split_ifs at ht
      · obtain rfl := Option.some.inj ht
        exact .kept (cpus_startTimer ..)
      · obtain rfl := Option.some.inj ht
        exact .kept ((cpus_readReplica ..).trans (cpus_startTimer ..))
      · obtain rfl := Option.some.inj ht
        exact .kept rfl
  | wake =>
    cases hpoint : s.point <;> simp only [step, hpoint, Option.mem_def, reduceCtorEq] at ht
    split at ht
    · cases ht
    · obtain rfl := Option.some.inj ht
      exact .kept (cpus_readReplica ..)
  | vote sched =>
    cases hpoint : s.point <;> simp only [step, hpoint, Option.mem_def, Option.some.injEq,
      reduceCtorEq] at ht
    subst ht
    simp only [stepSends, restarts, hpoint]
    exact (repinned_checkSDC ..).congr (cpus_balance ..).symm rfl
  | replicaWrites | replicaReads | externalWrites =>
    simp only [step, Option.mem_def, Option.ite_none_right_eq_some, Option.some.injEq] at ht
    obtain ⟨-, rfl⟩ := ht
    exact .kept rfl
  | tick d =>
    obtain rfl := Option.some.inj ht
    exact .kept rfl

/-! ### Runs -/

/-- Every replica has its own core in its record, and was sent it. -/
def Pinned (c : Config) (s : State) (sent : ℕ → ℤ) : Prop :=
  ∀ i < c.repCount, (s.replicas i).pinnedCpu = i + 1 ∧ sent i = i + 1

instance (c : Config) (s : State) (sent : ℕ → ℤ) : Decidable (Pinned c s sent) :=
  inferInstanceAs (Decidable (∀ i < c.repCount, _))

/-- The step refills no slot but the first. -/
def OnlyFirst (c : Config) (s : State) (a : Act) : Prop := ∀ v ∈ restarts c s a, v = 0

instance (c : Config) (s : State) (a : Act) : Decidable (OnlyFirst c s a) :=
  inferInstanceAs (Decidable (∀ v ∈ restarts c s a, _))

theorem Repinned.sent {sends : List (ℕ × ℤ)} {w : Option ℕ} (h : Repinned c s t sends w) :
    t.cpus = deliver sends s.cpus := by
  cases h with
  | kept hcpus => exact hcpus
  | refilled v hv hcpus => exact hcpus
  | cold hcount hcpus => exact hcpus

/-- Once a slot other than the first is pinned to core 1, it stays there. -/
theorem Repinned.misplaced {sends : List (ℕ × ℤ)} {w : Option ℕ} (h : Repinned c s t sends w)
    (hv : v < c.repCount) (hpos : v ≠ 0) (hs : s.cpus v = 1) : t.cpus v = 1 := by
  cases h with
  | kept hcpus => rw [hcpus, hs]
  | refilled u hu hcpus =>
    rw [hcpus]
    rcases eq_or_ne v u with rfl | huv
    · rw [Function.update_self]
    · rw [Function.update_of_ne huv, hs]
  | cold hcount hcpus => omega

/-- What was sent and what the records say stays the same. -/
theorem run_sent {as : List Act} {sent sent' : ℕ → ℤ} (h : s.cpus = sent)
    (hrun : run (record (step c) (noteSends c)) as (s, sent) = some (t, sent')) :
    t.cpus = sent' := by
  refine run_invariant (I := fun _ (x : State × (ℕ → ℤ)) => x.1.cpus = x.2) h ?_ hrun
  intro k x a y hx hy
  obtain ⟨hstep, hnote⟩ := mem_record.mp hy
  rw [(repinned_step hstep).sent, hx, hnote]
  rfl

theorem run_misplaced {as : List Act} (hrun : run (step c) as s = some t) (hv : v < c.repCount)
    (hpos : v ≠ 0) (hs : s.cpus v = 1) : t.cpus v = 1 :=
  run_invariant (I := fun _ (t : State) => t.cpus v = 1) hs
    (fun _ _ _ _ ht hu => (repinned_step hu).misplaced hv hpos ht) hrun

/-- From own cores, a run that refills the first slot only leads to own cores, and no other. -/
theorem run_ownCores {as : List Act} (hrun : run (step c) as s = some t)
    (hs : ∀ i < c.repCount, s.cpus i = i + 1) :
    (∀ i < c.repCount, t.cpus i = i + 1) ↔ AllSteps (step c) (OnlyFirst c) as s := by
  induction as generalizing s with
  | nil =>
    obtain rfl : s = t := by simpa using hrun
    exact iff_of_true hs trivial
  | cons a as ih =>
    obtain ⟨u, hu, hrest⟩ := Option.bind_eq_some_iff.mp hrun
    have hall : AllSteps (step c) (OnlyFirst c) (a :: as) s ↔
        OnlyFirst c s a ∧ AllSteps (step c) (OnlyFirst c) as u :=
      and_congr_right fun _ => by simp [hu]
    rw [hall]
    have hstep := repinned_step hu
    generalize hsends : stepSends c s a = sends at hstep
    generalize hrestarts : restarts c s a = w at hstep
    have hfirst : (∀ v ∈ w, v = 0) → ((∀ i < c.repCount, u.cpus i = i + 1) →
        ((∀ i < c.repCount, t.cpus i = i + 1) ↔
          OnlyFirst c s a ∧ AllSteps (step c) (OnlyFirst c) as u)) := fun hw hown => by
      rw [ih hrest hown, and_iff_right]
      rwa [OnlyFirst, hrestarts]
    cases hstep with
    | kept hcpus => exact hfirst (by simp) (by rwa [hcpus])
    | cold hcount hcpus =>
      refine hfirst (by simp) fun i hi => ?_
      obtain rfl : i = 0 := by omega
      simp [hcpus]
    | refilled v hv hcpus =>
      rcases eq_or_ne v 0 with rfl | hpos
      · refine hfirst (by simp) fun i hi => ?_
        rcases eq_or_ne i 0 with rfl | hi0
        · simp [hcpus]
        · rw [hcpus, Function.update_of_ne hi0, hs i hi]
      · refine iff_of_false (fun hown => ?_) fun h => ?_
        · have hone := run_misplaced hrest hv hpos (by rw [hcpus, Function.update_self])
          have hv' := hown v hv
          omega
        · exact hpos (h.1 v (by rw [hrestarts]; rfl))

/-- **Distinct cores.** After any run from start-up, every replica has its own core in its record
and was sent it, if and only if no restart of the run refilled a slot other than the first. -/
theorem pinned_iff {vots : ℕ → ℕ → VotePipe} {fds : List ℕ} {now : ℕ} {as : List Act}
    {sent : ℕ → ℤ}
    (hrun : run (record (step c) (noteSends c)) as
      (initVoterD c (boot vots fds now), deliver (startReplicasSends c (boot vots fds now))
        fun _ => 0) = some (t, sent)) :
    Pinned c t sent ↔
      AllSteps (step c) (OnlyFirst c) as (initVoterD c (boot vots fds now)) := by
  have hstart := cpus_startReplicas c (boot vots fds now)
  have hcpus : (initVoterD c (boot vots fds now)).cpus = ownCores c.repCount fun _ => 0 :=
    (cpus_touchPipes ..).trans hstart.1
  have hsent : t.cpus = sent := run_sent (by rw [hcpus, hstart.2, deliver_range]) hrun
  have hown : ∀ i < c.repCount, (initVoterD c (boot vots fds now)).cpus i = i + 1 :=
    fun i hi => by rw [hcpus, ownCores, if_pos hi]
  rw [← run_ownCores (run_forget hrun) hown, Pinned, ← hsent]
  exact forall₂_congr fun i _ => and_self_iff

/-- Start-up, and what it sends. -/
def recordedStart (c : Config) (n : ℕ) : State × (ℕ → ℤ) :=
  (initVoterD c (boot (fun _ _ => zeroPipe) (List.range n) 0),
    deliver (startReplicasSends c (boot (fun _ _ => zeroPipe) (List.range n) 0)) fun _ => 0)

/-- Where a list of steps leads, and what it sends. -/
def recorded (c : Config) (n : ℕ) (as : List Act) : State × (ℕ → ℤ) :=
  follow (record (step c) (noteSends c)) as (recordedStart c n)

/-- Replica 0 is outvoted. -/
theorem pinned_firstOutvoted :
    Pinned rangerConfig (recorded rangerConfig 6 (writeBeforeVote ++ [.vote granted])).1
      (recorded rangerConfig 6 (writeBeforeVote ++ [.vote granted])).2 := by
  have hrun : run (record (step rangerConfig) (noteSends rangerConfig))
      (writeBeforeVote ++ [.vote granted]) (recordedStart rangerConfig 6) =
      some (recorded rangerConfig 6 (writeBeforeVote ++ [.vote granted])) :=
    run_eq_follow (by decide +kernel)
  exact (pinned_iff hrun).mpr (by decide +kernel)

/-- Replica 1 differs from the others. -/
def secondOutvoted : List Act :=
  [.replicaWrites 0 1 [65], .replicaWrites 1 1 [88], .replicaWrites 2 1 [65], .update granted,
    .select, .external granted, .scan, .scan, .scan, .scan, .vote granted, .scan,
    .vote granted, .scan, .vote granted]

/-- After the vote replicas 0 and 1 are both on core 1. -/
theorem not_pinned_secondOutvoted : ∃ s sent,
    run (record (step rangerConfig) (noteSends rangerConfig)) secondOutvoted
      (recordedStart rangerConfig 6) = some (s, sent) ∧
      ((s.replicas 0).pinnedCpu = 1 ∧ (s.replicas 1).pinnedCpu = 1 ∧ sent 1 = 1) ∧
      ¬ Pinned rangerConfig s sent :=
  ⟨(recorded rangerConfig 6 secondOutvoted).1, (recorded rangerConfig 6 secondOutvoted).2,
    run_eq_follow (by decide +kernel), by decide +kernel, by decide +kernel⟩

end S3RES.VoterD
