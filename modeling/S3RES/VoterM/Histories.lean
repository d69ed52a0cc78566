import S3RES.VoterM.Diagnosis
import S3RES.VoterM.Provenance
import S3RES.VoterM.QuadRound

/-!
# The histories of the two builds

The actions of `QuadCore` and of `SingleCore` are matched with the operations they perform.
`faithful_iff_firstRound` is what the records say of what is forwarded: it is what was last read
in the round, if and only if the counts that the first round relies on were 0 in the memory that
`malloc` gave. `noneFromKilled_iff_readAgain` is what they say of killed processes.
-/

namespace S3RES.VoterM

open Loop Memory StepSystem

variable {c : Config} {s t : State} {f p r : ℕ} {b : Bool}

/-! ### What the functions of `main` change -/

theorem held_startReplicas (c : Config) (s : State) (forking : Bool) (i n : ℕ) :
    (startReplicas c s forking i n).held = s.held :=
  loop_proj (f := fun k s => startReplica c s forking (i + k)) State.held (fun _ _ => rfl) n s

theorem extOut_startReplicas (c : Config) (s : State) (forking : Bool) (i n : ℕ) :
    (startReplicas c s forking i n).extOut = s.extOut :=
  loop_proj (f := fun k s => startReplica c s forking (i + k)) State.extOut (fun _ _ => rfl) n s

theorem faultIndex_startReplicas (c : Config) (s : State) (forking : Bool) (i n : ℕ) :
    (startReplicas c s forking i n).faultIndex = s.faultIndex :=
  loop_proj (f := fun k s => startReplica c s forking (i + k)) State.faultIndex (fun _ _ => rfl) n s

theorem held_sendToReps (c : Config) (s : State) : (sendToReps c s).held = s.held :=
  loop_proj (f := fun r s => writeInput s r) State.held (fun _ _ => rfl) c.repCount s

theorem extOut_sendToReps (c : Config) (s : State) : (sendToReps c s).extOut = s.extOut :=
  loop_proj (f := fun r s => writeInput s r) State.extOut (fun _ _ => rfl) c.repCount s

theorem faultIndex_sendToReps (c : Config) (s : State) :
    (sendToReps c s).faultIndex = s.faultIndex :=
  loop_proj (f := fun r s => writeInput s r) State.faultIndex (fun _ _ => rfl) c.repCount s

theorem faultIndex_sendData (c : Config) (s : State) (u : ℕ) :
    (sendData c s u).faultIndex = s.faultIndex := by
  obtain ⟨replicas, hloop, -⟩ := loop_clearCount
    (loop (writeOut u) c.outPipeCount s) c.repCount c.outPipeCount
  rw [loop_writeOut] at hloop
  rw [sendData, loop_writeOut, hloop]

theorem held_readOut_take : (readOut s r p).held r p = (s.outQueue r p).take maxPipeBuff := by
  simp only [State.held, readOut, Function.update_self, block_store]

theorem faultIndex_findFaultReplica (hpos : 0 < c.repCount) :
    (findFaultReplica c s).faultIndex < c.repCount := by
  refine loop_induction (n := c.repCount) (fun _ (lowest : ℕ × ℕ) => lowest.1 < c.repCount) hpos
    fun r hr lowest hlowest => ?_
  split
  · exact hr
  · exact hlowest

/-- Only what is held, what is unread and what was sent counts of the state an action starts in. -/
theorem Performs.of_eq (s' : State) {b' : Bool} {ops : List Op} (hheld : s'.held = s.held)
    (hqueue : s'.outQueue = s.outQueue) (hout : s'.extOut = s.extOut)
    (h : Performs c b s' ops b' t) : Performs c b s ops b' t := by
  cases h with
  | quiet hkeep hsame => exact .quiet (hheld ▸ hkeep) (hout ▸ hsame)
  | read hr hp hne hread hkeep hsame =>
    exact .read hr hp (hqueue ▸ hne) (hqueue ▸ hread) (hheld ▸ hkeep) (hout ▸ hsame)
  | send hu hclear hsent => exact .send hu hclear (hheld ▸ hout ▸ hsent)
  | replaceSend hf hu huf hclear hsent =>
    exact .replaceSend hf hu huf hclear (hheld ▸ hout ▸ hsent)
  | replace hone hf hkeep hsame => exact .replace hone hf (hheld ▸ hkeep) (hout ▸ hsame)

/-! ### The end of a round -/

/-- The replica before another one is another one. -/
theorem sender_spec (hone : 1 < c.repCount) (hindex : s.faultIndex < c.repCount) :
    sender c s < c.repCount ∧ sender c s ≠ s.faultIndex := by
  refine ⟨Nat.mod_lt _ (by omega), fun heq => ?_⟩
  rw [sender] at heq
  rcases Nat.lt_or_ge (s.faultIndex + (c.repCount - 1)) c.repCount with hlt | hge
  · rw [Nat.mod_eq_of_lt hlt] at heq
    omega
  · rw [Nat.mod_eq_sub_mod hge, Nat.mod_eq_of_lt (by omega)] at heq
    omega

theorem sender_lt (hpos : 0 < c.repCount) : sender c s < c.repCount := Nat.mod_lt _ hpos

/-- A fault is found among two or three. -/
theorem verdict_spec (hindex : s.faultIndex < c.repCount) :
    ((verdict c s).fault = true → 1 < c.repCount) ∧ (verdict c s).faultIndex < c.repCount := by
  have htmr : c.repCount = 3 → ∀ (differ : ℕ → ℕ → ℕ → Bool) (v : Verdict),
      v.faultIndex < c.repCount →
      (loop (fun p => checkTmr (differ p)) c.outPipeCount v).faultIndex < c.repCount := by
    intro hthree differ v hv
    refine loop_induction (fun _ (w : Verdict) => w.faultIndex < c.repCount) hv fun p _ w hw => ?_
    rw [checkTmr]
    split_ifs
    all_goals first | exact hw | exact hthree ▸ (by decide)
  rw [verdict]
  split
  · rename_i htwo
    refine ⟨fun _ => by omega, ?_⟩
    refine loop_induction (fun _ (w : Verdict) => w.faultIndex < c.repCount) hindex
      fun p _ w hw => ?_
    rw [checkDmr]
    split_ifs
    all_goals first | exact hw | exact htwo ▸ (by decide)
  · rename_i hthree
    refine ⟨fun _ => by omega, ?_⟩
    dsimp only
    split
    · exact htmr hthree _ _ hindex
    · exact htmr hthree _ _ (htmr hthree _ _ hindex)
  · exact ⟨fun h => absurd h (by simp), hindex⟩

theorem performs_sendData {u : ℕ} (hu : u < c.repCount) :
    Performs c b s [.send u] false (sendData c s u) := by
  have hsent := sent_sendData c s u
  refine .send hu (fun r hr p hp => ?_) fun p hp => ?_
  · exact (hsent.held r p).trans (if_pos ⟨hr, hp⟩)
  · exact (hsent.extOut p).trans (if_pos hp)

/-- The operations of a vote. -/
def voteOps (c : Config) (s : State) : List Op :=
  let v := verdict c s
  if v.fault then
    [.replace v.faultIndex, .send ((v.faultIndex + (c.repCount - 1)) % c.repCount)]
  else [.send 0]

/-- The operations behind a time-out that is blamed on slot `f`. -/
def timeoutOps (c : Config) (f : ℕ) : List Op :=
  if c.repCount = 1 then [.replace f]
  else [.replace f, .send ((f + (c.repCount - 1)) % c.repCount)]

theorem performs_recover (hone : 1 < c.repCount) (hindex : s.faultIndex < c.repCount) :
    Performs c false s
      [.replace s.faultIndex, .send ((s.faultIndex + (c.repCount - 1)) % c.repCount)] false
      (recover c (killAndClean s s.faultIndex)) := by
  obtain ⟨hlt, hne⟩ := sender_spec hone hindex
  have hsender : sender c (startReplicas c (killAndClean s s.faultIndex) false
      (killAndClean s s.faultIndex).faultIndex 1) = sender c s := by
    rw [sender, faultIndex_startReplicas]
    rfl
  have hsent := sent_sendData c (startReplicas c (killAndClean s s.faultIndex) false
    (killAndClean s s.faultIndex).faultIndex 1) (sender c s)
  rw [recover, hsender]
  refine .replaceSend hindex hlt hne (fun r hr p hp => ?_) fun p hp => ?_
  · exact (hsent.held r p).trans (if_pos ⟨hr, hp⟩)
  · rw [hsent.extOut p, if_pos hp, extOut_startReplicas, held_startReplicas]
    rfl

theorem performs_restartAlone (hone : c.repCount = 1) (hindex : s.faultIndex < c.repCount) :
    Performs c false s [.replace s.faultIndex] true
      (beginCollect (restartAlone c (killAndClean s s.faultIndex))) := by
  have hheld : (restartAlone c (killAndClean s s.faultIndex)).held = s.held := by
    rw [restartAlone, held_sendToReps, held_startReplicas]
    rfl
  have hout : (restartAlone c (killAndClean s s.faultIndex)).extOut = s.extOut := by
    rw [restartAlone, extOut_sendToReps, extOut_startReplicas]
    rfl
  exact .replace hone hindex (fun r _ p _ => congrFun (congrFun hheld r) p)
    fun p _ => congrFun hout p

theorem performs_vote (hindex : s.faultIndex < c.repCount) :
    Performs c false s (voteOps c s) false (vote c s) := by
  obtain ⟨hone, hlt⟩ := verdict_spec hindex
  refine .of_eq { s with faultIndex := (verdict c s).faultIndex } rfl rfl rfl ?_
  cases hfault : (verdict c s).fault with
  | true =>
    have hvote : vote c s = recover c (killAndClean
        { s with faultIndex := (verdict c s).faultIndex } (verdict c s).faultIndex) := by
      simp only [vote, checkSDC, hfault, if_true, recover]
    rw [hvote, voteOps, if_pos hfault]
    exact performs_recover (hone hfault) hlt
  | false =>
    have hvote : vote c s = sendData c { s with faultIndex := (verdict c s).faultIndex } 0 := by
      simp only [vote, checkSDC, hfault, Bool.false_eq_true, if_false]
    rw [hvote, voteOps, if_neg (by simp [hfault])]
    exact performs_sendData (by omega)

theorem faultIndex_recover (c : Config) (s : State) :
    (recover c s).faultIndex = s.faultIndex := by
  rw [recover, faultIndex_sendData, faultIndex_startReplicas]

theorem faultIndex_restartAlone (c : Config) (s : State) :
    (restartAlone c s).faultIndex = s.faultIndex := by
  rw [restartAlone, faultIndex_sendToReps, faultIndex_startReplicas]

theorem faultIndex_vote (hindex : s.faultIndex < c.repCount) :
    (vote c s).faultIndex < c.repCount := by
  have hlt := (verdict_spec hindex).2
  cases hfault : (verdict c s).fault with
  | true =>
    simp only [vote, checkSDC, hfault, if_true, faultIndex_sendData, faultIndex_startReplicas]
    exact hlt
  | false =>
    simp only [vote, checkSDC, hfault, Bool.false_eq_true, if_false, faultIndex_sendData]
    exact hlt

/-! ### `collectFromReps` -/

/-- What is left to read is there. -/
def Stage.InRange (c : Config) (stage : Stage) : Prop :=
  ∀ x ∈ stage.todo, x.1 < c.repCount ∧ x.2 < c.outPipeCount

/-- What a step of the loop reads. -/
def Stage.ops : Stage → List Op
  | .scan ((r, p) :: _) => [.read r p]
  | _ => []

theorem performs_readOut (hr : r < c.repCount) (hp : p < c.outPipeCount)
    (hne : s.outQueue r p ≠ []) : Performs c b s [.read r p] b (readOut s r p) :=
  .read hr hp hne held_readOut_take (fun _ _ _ _ h => held_readOut h) fun _ _ => rfl

theorem performs_quiet (hheld : t.held = s.held) (hout : t.extOut = s.extOut) :
    Performs c b s [] b t :=
  .quiet (fun r _ p _ => congrFun (congrFun hheld r) p) fun p _ => congrFun hout p

/-- The loop goes on. -/
theorem performs_collectFromReps {k k' : Collect} (hrange : k.stage.InRange c)
    (ht : (some k', t) ∈ collectFromReps c k s) :
    k'.stage.InRange c ∧ t.faultIndex = s.faultIndex ∧ Performs c b s k.stage.ops b t := by
  have hnothing : ∀ {stage : Stage}, stage.todo = [] → stage.InRange c :=
    fun hnil x hx => absurd hx (by simp [hnil])
  rw [collectFromReps] at ht
  split at ht
  · split at ht
    · simp at ht
    · rename_i hstage _
      simp only [Option.mem_def, Option.some.injEq, Prod.mk.injEq] at ht
      obtain ⟨rfl, rfl⟩ := ht
      rw [hstage]
      exact ⟨hnothing rfl, rfl, performs_quiet rfl rfl⟩
  · rename_i hstage
    simp only [Option.mem_def, Option.some.injEq, Prod.mk.injEq] at ht
    obtain ⟨rfl, rfl⟩ := ht
    rw [hstage]
    refine ⟨fun x hx => ?_, rfl, performs_quiet rfl rfl⟩
    obtain ⟨hr, hp, -⟩ := mem_readyOuts.mp hx
    exact ⟨hr, hp⟩
  · rename_i hstage
    simp only [Option.mem_def, Option.some.injEq, Prod.mk.injEq] at ht
    obtain ⟨hk, rfl⟩ := ht
    split at hk
    · simp at hk
    · rw [Option.some.injEq] at hk
      subst hk
      rw [hstage]
      exact ⟨hnothing rfl, rfl, performs_quiet rfl rfl⟩
  · rename_i r p todo hstage
    rw [hstage] at hrange ⊢
    obtain ⟨hr, hp⟩ := hrange (r, p) List.mem_cons_self
    have hrest : ∀ x ∈ todo, x.1 < c.repCount ∧ x.2 < c.outPipeCount :=
      fun x hx => hrange x (List.mem_cons_of_mem _ hx)
    split at ht
    · simp at ht
    · rename_i hne
      split at ht <;>
        · simp only [Option.mem_def, Option.some.injEq, Prod.mk.injEq] at ht
          obtain ⟨rfl, rfl⟩ := ht
          exact ⟨hrest, rfl, performs_readOut hr hp hne⟩

/-- The lone replica has answered, or has not in time: output is sent. -/
theorem performs_retry {k : Collect} {u : ℕ} (hu : u < c.repCount)
    (ht : (none, t) ∈ collectFromReps c k s) :
    (sendData c t u).faultIndex = s.faultIndex ∧
      Performs c b s [.send u] false (sendData c t u) := by
  rw [faultIndex_sendData]
  have hsend : Performs c b t [.send u] false (sendData c t u) := performs_sendData hu
  cases left_of_collectFromReps ht with
  | timeout => exact ⟨rfl, .of_eq { s with timeoutOccurred := true } rfl rfl rfl hsend⟩
  | full => exact ⟨rfl, hsend⟩

/-- The others write and read, and nothing that is held changes. -/
theorem performs_other {a : Act} (h : t ∈ environment c s a) :
    t.faultIndex = s.faultIndex ∧ Performs c b s [] b t := by
  have hother := environment_cases h
  exact ⟨hother.steady.faultIndex, performs_quiet hother.held hother.steady.extOut⟩

/-! ### The build for several cores -/

namespace QuadCore

/-- What is left of the loop the voter is in. -/
def Machine.stage (m : Machine) : Stage :=
  match m.point with
  | .collect k | .retry k => k.stage
  | _ => .check

/-- A lone replica was restarted and is waited for. -/
def Machine.lone (m : Machine) : Bool :=
  match m.point with
  | .retry _ => true
  | _ => false

/-- The operations of `afterCollect`. -/
def endOps (c : Config) (s : State) : List Op :=
  if s.timeoutOccurred then timeoutOps c (findFaultReplica c s).faultIndex else voteOps c s

/-- The operations of an action. -/
def ops (c : Config) (m : Machine) : Act → List Op
  | .voter _ =>
    match m.point with
    | .collect k =>
      match collectFromReps c k m.toState with
      | some (none, s) => endOps c s
      | _ => k.stage.ops
    | .retry k =>
      match collectFromReps c k m.toState with
      | some (none, s) => [.send (sender c s)]
      | _ => k.stage.ops
    | _ => []
  | _ => []

/-- What holds at the system calls. -/
structure Placed (c : Config) (m : Machine) : Prop where
  faultIndex : m.faultIndex < c.repCount
  inRange : m.stage.InRange c
  lone : m.lone = true → c.repCount = 1

variable {m m' : Machine}

theorem performs_afterCollect (hindex : s.faultIndex < c.repCount) :
    Placed c (afterCollect c s) ∧
      Performs c false s (endOps c s) (afterCollect c s).lone (afterCollect c s).toState := by
  have hnothing : Stage.InRange c .check := fun x hx => absurd hx List.not_mem_nil
  rw [afterCollect, endOps]
  split
  · have hfound := faultIndex_findFaultReplica (s := s) (hindex.trans_le' (Nat.zero_le _))
    dsimp only
    by_cases hone : c.repCount = 1
    · rw [if_pos hone, timeoutOps, if_pos hone]
      refine ⟨⟨?_, hnothing, fun _ => hone⟩,
        .of_eq (findFaultReplica c s) rfl rfl rfl (performs_restartAlone hone hfound)⟩
      exact (faultIndex_restartAlone c _).trans_lt hfound
    · rw [if_neg hone, timeoutOps, if_neg hone]
      refine ⟨⟨?_, hnothing, fun h => absurd h (by simp [Machine.lone])⟩,
        .of_eq (findFaultReplica c s) rfl rfl rfl (performs_recover (by omega) hfound)⟩
      exact (faultIndex_recover c _).trans_lt hfound
  · refine ⟨⟨faultIndex_vote hindex, hnothing, fun h => absurd h (by simp [Machine.lone])⟩, ?_⟩
    exact performs_vote hindex

/-- **One action.** -/
theorem performs_step {a : Act} (h : Placed c m) (ht : m' ∈ step c m a) :
    Placed c m' ∧ Performs c m.lone m.toState (ops c m a) m'.lone m'.toState := by
  have hnothing : Stage.InRange c .check := fun x hx => absurd hx List.not_mem_nil
  obtain ⟨s, point⟩ := m
  obtain ⟨hindex, hrange, hlone⟩ := h
  cases a with
  | voter sched =>
    cases point with
    | receive =>
      simp only [step, main, Option.mem_def, Option.some.injEq] at ht
      subst ht
      by_cases hnone : readyIn c s = []
      · rw [if_pos hnone]
        exact ⟨⟨hindex, hnothing, hlone⟩, performs_quiet rfl rfl⟩
      · rw [if_neg hnone]
        exact ⟨⟨hindex, hnothing, hlone⟩, performs_quiet rfl rfl⟩
    | received ready =>
      cases ready with
      | nil | cons =>
        simp only [step, main, Option.mem_def, Option.some.injEq] at ht
        subst ht
        exact ⟨⟨hindex, hnothing, hlone⟩, performs_quiet rfl rfl⟩
    | send =>
      simp only [step, main, Option.mem_def] at ht
      have hindex' : (sendToReps c s).faultIndex < c.repCount :=
        (faultIndex_sendToReps c s).trans_lt hindex
      split at ht <;>
        · rw [Option.some.injEq] at ht
          subst ht
          exact ⟨⟨hindex', hnothing, hlone⟩,
            performs_quiet (held_sendToReps c s) (extOut_sendToReps c s)⟩
    | collect k =>
      simp only [step, main, Option.mem_def] at ht
      split at ht
      · rename_i k' t hcollect
        rw [Option.some.injEq] at ht
        subst ht
        obtain ⟨hrange', hindex', hperforms⟩ :=
          performs_collectFromReps (b := false) hrange hcollect
        simp only [ops, hcollect]
        exact ⟨⟨hindex'.trans_lt hindex, hrange', hlone⟩, hperforms⟩
      · rename_i t hcollect
        rw [Option.some.injEq] at ht
        subst ht
        simp only [ops, hcollect]
        cases left_of_collectFromReps hcollect with
        | timeout =>
          obtain ⟨hplaced, hperforms⟩ :=
            performs_afterCollect (s := { s with timeoutOccurred := true }) hindex
          exact ⟨hplaced, .of_eq { s with timeoutOccurred := true } rfl rfl rfl hperforms⟩
        | full => exact performs_afterCollect hindex
      · simp at ht
    | retry k =>
      simp only [step, main, Option.mem_def] at ht
      split at ht
      · rename_i k' t hcollect
        rw [Option.some.injEq] at ht
        subst ht
        obtain ⟨hrange', hindex', hperforms⟩ :=
          performs_collectFromReps (b := true) hrange hcollect
        simp only [ops, hcollect]
        exact ⟨⟨hindex'.trans_lt hindex, hrange', hlone⟩, hperforms⟩
      · rename_i t hcollect
        rw [Option.some.injEq] at ht
        subst ht
        have hpos : 0 < c.repCount := hindex.trans_le' (Nat.zero_le _)
        obtain ⟨hindex', hperforms⟩ := performs_retry (sender_lt (s := t) hpos) hcollect
        simp only [ops, hcollect]
        refine ⟨⟨hindex'.trans_lt hindex, hnothing, fun h => absurd h (by simp [Machine.lone])⟩, ?_⟩
        exact hperforms
      · simp at ht
  | replicaWrites | replicaReads | externalWrites | tick =>
    simp only [step, Option.mem_def, Option.map_eq_some_iff] at ht
    obtain ⟨t, ht', rfl⟩ := ht
    obtain ⟨hindex', hperforms⟩ := performs_other (b := (Machine.mk s point).lone) ht'
    exact ⟨⟨hindex'.trans_lt hindex, hrange, hlone⟩, hperforms⟩

/-- VoterM started from the memory that `malloc` gave. -/
def startFrom (c : Config) (memory : ℕ → ReplicaR) : Machine :=
  { toState := initVoterM c (bootFrom memory), point := .receive }

/-- Record an action. -/
def note (c : Config) (m : Machine) (a : Act) (h : History) : History :=
  (ops c m a).foldl (History.note m.toState) h

end QuadCore

/-! ### The build for a single core -/

namespace SingleCore

/-- What is left of the loop the voter is in, and the slot it is about. -/
def Machine.Ready (c : Config) (m : Machine) : Prop :=
  match m.point with
  | .collect r _ _ stage => r < c.repCount ∧ stage.InRange c
  | .retry k => k.stage.InRange c
  | _ => True

/-- A lone replica was restarted and is waited for. -/
def Machine.lone (m : Machine) : Bool :=
  match m.point with
  | .retry _ => true
  | _ => false

/-- The operations of `afterCollect`. -/
def endOps (c : Config) (s : State) (doneCount : ℕ) : List Op :=
  if checkWaitOnInput c s then
    if doneCount = c.repCount then voteOps c s else timeoutOps c s.faultIndex
  else []

/-- The operations of an action. -/
def ops (c : Config) (m : Machine) : Act → List Op
  | .voter _ =>
    match m.point with
    | .turn r doneCount => if r < c.repCount then [] else endOps c m.toState doneCount
    | .collect r _ _ (.scan ((_, p) :: _)) => [.read r p]
    | .retry k =>
      match collectFromReps c k m.toState with
      | some (none, _) => [.send 0]
      | _ => k.stage.ops
    | _ => []
  | _ => []

/-- What holds at the system calls. -/
structure Placed (c : Config) (m : Machine) : Prop where
  faultIndex : m.faultIndex < c.repCount
  ready : m.Ready c
  lone : m.lone = true → c.repCount = 1

variable {m m' : Machine}

theorem held_setPriority (s : State) (r : ℕ) (priority : ℤ) (sched : Bool) :
    (setPriority s r priority sched).held = s.held := by
  rw [setPriority]
  split
  · funext r' p
    rcases eq_or_ne r' r with rfl | hr
    · simp [State.held]
    · simp [State.held, hr]
  · rfl

theorem extOut_setPriority (s : State) (r : ℕ) (priority : ℤ) (sched : Bool) :
    (setPriority s r priority sched).extOut = s.extOut := by
  rw [setPriority]
  split <;> rfl

theorem faultIndex_setPriority (s : State) (r : ℕ) (priority : ℤ) (sched : Bool) :
    (setPriority s r priority sched).faultIndex = s.faultIndex := by
  rw [setPriority]
  split <;> rfl

theorem performs_afterCollect (hindex : s.faultIndex < c.repCount) (doneCount : ℕ) :
    Placed c (afterCollect c s doneCount) ∧
      Performs c false s (endOps c s doneCount) (afterCollect c s doneCount).lone
        (afterCollect c s doneCount).toState := by
  have hnothing : Stage.InRange c .check := fun x hx => absurd hx List.not_mem_nil
  have hlone : ∀ {u : State}, (Machine.mk u .receive).lone = true → c.repCount = 1 :=
    fun h => absurd h (by simp [Machine.lone])
  rw [afterCollect, endOps]
  split
  · split
    · exact ⟨⟨faultIndex_vote hindex, trivial, hlone⟩, performs_vote hindex⟩
    · dsimp only
      by_cases hone : c.repCount = 1
      · rw [if_pos hone, timeoutOps, if_pos hone]
        refine ⟨⟨?_, hnothing, fun _ => hone⟩, performs_restartAlone hone hindex⟩
        exact (faultIndex_restartAlone c _).trans_lt hindex
      · rw [if_neg hone, timeoutOps, if_neg hone]
        refine ⟨⟨?_, trivial, hlone⟩, performs_recover (by omega) hindex⟩
        exact (faultIndex_recover c _).trans_lt hindex
  · exact ⟨⟨hindex, trivial, hlone⟩, performs_quiet rfl rfl⟩

/-- A replica's turn ends. -/
theorem performs_endTurn (hindex : s.faultIndex < c.repCount) (r doneCount : ℕ) (sched : Bool) :
    Placed c (endTurn c s r doneCount sched) ∧
      Performs c false s [] (endTurn c s r doneCount sched).lone
        (endTurn c s r doneCount sched).toState :=
  ⟨⟨(faultIndex_setPriority ..).trans_lt hindex, trivial,
    fun h => absurd h (by simp [Machine.lone, endTurn])⟩,
    performs_quiet (held_setPriority ..) (extOut_setPriority ..)⟩

/-- A step of the loop over the pipes of one replica. -/
theorem performs_collect {r doneCount : ℕ} {done sched : Bool} {stage : Stage}
    (h : Placed c ⟨s, .collect r doneCount done stage⟩)
    (ht : m' ∈ main c ⟨s, .collect r doneCount done stage⟩ sched) :
    Placed c m' ∧ Performs c false s (ops c ⟨s, .collect r doneCount done stage⟩ (.voter sched))
      m'.lone m'.toState := by
  have hnothing : Stage.InRange c .check := fun x hx => absurd hx List.not_mem_nil
  obtain ⟨hindex, hready, hlone⟩ := h
  obtain ⟨hr, hrange⟩ := hready
  cases stage with
  | check =>
    simp only [main, Option.mem_def] at ht
    split at ht
    · rw [Option.some.injEq] at ht
      subst ht
      obtain ⟨hplaced, hperforms⟩ := performs_endTurn
        (s := { s with timeoutOccurred := true, faultIndex := r }) hr r doneCount sched
      exact ⟨hplaced,
        .of_eq { s with timeoutOccurred := true, faultIndex := r } rfl rfl rfl hperforms⟩
    · rw [Option.some.injEq] at ht
      subst ht
      exact ⟨⟨hindex, ⟨hr, hnothing⟩, hlone⟩, performs_quiet rfl rfl⟩
  | waiting =>
    simp only [main, Option.mem_def, Option.some.injEq] at ht
    subst ht
    refine ⟨⟨hindex, ⟨hr, fun x hx => ?_⟩, hlone⟩, performs_quiet rfl rfl⟩
    obtain ⟨hx, hp, -⟩ := mem_readyOf.mp hx
    exact ⟨hx ▸ hr, hp⟩
  | scan todo =>
    cases todo with
    | nil =>
      simp only [main, Option.mem_def] at ht
      split at ht
      · rw [Option.some.injEq] at ht
        subst ht
        exact performs_endTurn hindex r doneCount sched
      · rw [Option.some.injEq] at ht
        subst ht
        exact ⟨⟨hindex, ⟨hr, hnothing⟩, hlone⟩, performs_quiet rfl rfl⟩
    | cons x todo =>
      obtain ⟨r', p⟩ := x
      have hp : p < c.outPipeCount := (hrange (r', p) List.mem_cons_self).2
      have hrest : Stage.InRange c (.scan todo) :=
        fun x hx => hrange x (List.mem_cons_of_mem _ hx)
      simp only [main, Option.mem_def] at ht
      split at ht
      · simp at ht
      · rename_i hne
        split at ht <;>
          · rw [Option.some.injEq] at ht
            subst ht
            exact ⟨⟨hindex, ⟨hr, hrest⟩, hlone⟩, performs_readOut hr hp hne⟩

/-- **One action.** -/
theorem performs_step {a : Act} (h : Placed c m) (ht : m' ∈ step c m a) :
    Placed c m' ∧ Performs c m.lone m.toState (ops c m a) m'.lone m'.toState := by
  have hnothing : Stage.InRange c .check := fun x hx => absurd hx List.not_mem_nil
  obtain ⟨s, point⟩ := m
  obtain ⟨hindex, hready, hlone⟩ := h
  cases a with
  | voter sched =>
    cases point with
    | receive =>
      simp only [step, main, Option.mem_def, Option.some.injEq] at ht
      subst ht
      by_cases hnone : readyIn c s = []
      · rw [if_pos hnone]
        exact ⟨⟨hindex, trivial, hlone⟩, performs_quiet rfl rfl⟩
      · rw [if_neg hnone]
        exact ⟨⟨hindex, trivial, hlone⟩, performs_quiet rfl rfl⟩
    | received ready =>
      cases ready with
      | nil | cons =>
        simp only [step, main, Option.mem_def, Option.some.injEq] at ht
        subst ht
        exact ⟨⟨hindex, trivial, hlone⟩, performs_quiet rfl rfl⟩
    | turn r doneCount =>
      simp only [step, main, Option.mem_def] at ht
      split at ht
      · rename_i hr
        simp only [ops, if_pos hr]
        split at ht
        · rw [Option.some.injEq] at ht
          subst ht
          refine ⟨⟨(faultIndex_setPriority ..).trans_lt hindex, ⟨hr, hnothing⟩, hlone⟩, ?_⟩
          exact performs_quiet (held_setPriority ..) (extOut_setPriority ..)
        · rw [Option.some.injEq] at ht
          subst ht
          exact ⟨⟨hindex, trivial, hlone⟩, performs_quiet rfl rfl⟩
      · rename_i hr
        rw [Option.some.injEq] at ht
        subst ht
        simp only [ops, if_neg hr]
        exact performs_afterCollect hindex doneCount
    | collect r doneCount done stage => exact performs_collect ⟨hindex, hready, hlone⟩ ht
    | retry k =>
      simp only [step, main, Option.mem_def] at ht
      split at ht
      · rename_i k' t hcollect
        rw [Option.some.injEq] at ht
        subst ht
        obtain ⟨hrange', hindex', hperforms⟩ :=
          performs_collectFromReps (b := true) hready hcollect
        simp only [ops, hcollect]
        exact ⟨⟨hindex'.trans_lt hindex, hrange', hlone⟩, hperforms⟩
      · rename_i t hcollect
        rw [Option.some.injEq] at ht
        subst ht
        have hpos : 0 < c.repCount := hindex.trans_le' (Nat.zero_le _)
        obtain ⟨hindex', hperforms⟩ := performs_retry hpos hcollect
        simp only [ops, hcollect]
        refine ⟨⟨hindex'.trans_lt hindex, trivial, fun h => absurd h (by simp [Machine.lone])⟩, ?_⟩
        exact hperforms
      · simp at ht
  | replicaWrites | replicaReads | externalWrites | tick =>
    simp only [step, Option.mem_def, Option.map_eq_some_iff] at ht
    obtain ⟨t, ht', rfl⟩ := ht
    obtain ⟨hindex', hperforms⟩ := performs_other (b := (Machine.mk s point).lone) ht'
    exact ⟨⟨hindex'.trans_lt hindex, hready, hlone⟩, hperforms⟩

/-- VoterM started from the memory that `malloc` gave. -/
def startFrom (c : Config) (memory : ℕ → ReplicaR) : Machine :=
  { toState := initVoterM c (bootFrom memory), point := .receive }

/-- Record an action. -/
def note (c : Config) (m : Machine) (a : Act) (h : History) : History :=
  (ops c m a).foldl (History.note m.toState) h

end SingleCore

/-! ### Runs from start-up -/

section Runs

variable {memory : ℕ → ReplicaR} {h : History}

/-- Start-up sets priorities, and starts processes. -/
theorem initVoterM_spec (c : Config) (s : State) :
    (initVoterM c s).held = s.held ∧ (initVoterM c s).extOut = s.extOut ∧
      (initVoterM c s).faultIndex = s.faultIndex := by
  rw [initVoterM, held_startReplicas, extOut_startReplicas, faultIndex_startReplicas]
  refine loop_induction (fun _ (t : State) =>
    t.held = s.held ∧ t.extOut = s.extOut ∧ t.faultIndex = s.faultIndex) ⟨rfl, rfl, rfl⟩ ?_
  rintro r _ t ⟨hheld, hout, hindex⟩
  refine ⟨?_, hout, hindex⟩
  rw [← hheld]
  funext r' p
  rcases eq_or_ne r' r with rfl | hr
  · simp [State.held]
  · simp [State.held, hr]

/-- Every run has a history, and every history is one of a run. -/
theorem QuadCore.exists_history_iff {m : QuadCore.Machine} :
    (∃ h, Reaches (record (QuadCore.step c) (QuadCore.note c)) (fun _ _ => True)
      (QuadCore.startFrom c memory, History.start c) (m, h)) ↔
      Reaches (QuadCore.step c) (fun _ _ => True) (QuadCore.startFrom c memory) m :=
  ⟨fun ⟨_, hreach⟩ => @Reaches.forget _ _ _ _ _ (fun _ _ => True) _ _ _ hreach,
    fun hreach => hreach.exists_record _ _⟩

theorem QuadCore.sourced {m : QuadCore.Machine} (hpos : 0 < c.repCount)
    (hreach : Reaches (record (QuadCore.step c) (QuadCore.note c)) (fun _ _ => True)
      (QuadCore.startFrom c memory, History.start c) (m, h)) :
    (∀ p < c.outPipeCount, m.extOut p = writtenTo p h.records) ∧
      (Faithful c h.records ↔ FirstRound c (bootFrom memory).held h.records) ∧
      (NoneFromKilled c h.records ↔ (c.repCount = 1 → ReadAgain c h.records)) := by
  obtain ⟨hheld, hout, hindex⟩ := initVoterM_spec c (bootFrom memory)
  have hplaced : QuadCore.Placed c (QuadCore.startFrom c memory) :=
    ⟨hindex.trans_lt hpos, fun x hx => absurd hx List.not_mem_nil,
      fun h => absurd h (by simp [QuadCore.Machine.lone, QuadCore.startFrom])⟩
  have hstart : (QuadCore.startFrom c memory).held = (bootFrom memory).held := hheld
  rw [← hstart]
  exact provenance (fun m a m' h ht => QuadCore.performs_step h ht) hplaced rfl
    (fun p _ => congrFun hout p) hreach

theorem SingleCore.exists_history_iff {m : SingleCore.Machine} :
    (∃ h, Reaches (record (SingleCore.step c) (SingleCore.note c)) (fun _ _ => True)
      (SingleCore.startFrom c memory, History.start c) (m, h)) ↔
      Reaches (SingleCore.step c) (fun _ _ => True) (SingleCore.startFrom c memory) m :=
  ⟨fun ⟨_, hreach⟩ => @Reaches.forget _ _ _ _ _ (fun _ _ => True) _ _ _ hreach,
    fun hreach => hreach.exists_record _ _⟩

theorem SingleCore.sourced {m : SingleCore.Machine} (hpos : 0 < c.repCount)
    (hreach : Reaches (record (SingleCore.step c) (SingleCore.note c)) (fun _ _ => True)
      (SingleCore.startFrom c memory, History.start c) (m, h)) :
    (∀ p < c.outPipeCount, m.extOut p = writtenTo p h.records) ∧
      (Faithful c h.records ↔ FirstRound c (bootFrom memory).held h.records) ∧
      (NoneFromKilled c h.records ↔ (c.repCount = 1 → ReadAgain c h.records)) := by
  obtain ⟨hheld, hout, hindex⟩ := initVoterM_spec c (bootFrom memory)
  have hplaced : SingleCore.Placed c (SingleCore.startFrom c memory) :=
    ⟨hindex.trans_lt hpos, trivial,
      fun h => absurd h (by simp [SingleCore.Machine.lone, SingleCore.startFrom])⟩
  have hstart : (SingleCore.startFrom c memory).held = (bootFrom memory).held := hheld
  rw [← hstart]
  exact provenance (fun m a m' h ht => SingleCore.performs_step h ht) hplaced rfl
    (fun p _ => congrFun hout p) hreach

/-- **What is forwarded was read.** In every run from start-up, on every memory, each call of
`sendData` writes exactly what was last read in its round on each pipe of the sender, if and only
if the pipes of the first sender that had not been read before had the count 0 in the memory
`malloc` gave. -/
theorem faithful_iff_firstRound (hpos : 0 < c.repCount) (memory : ℕ → ReplicaR) :
    (∀ m h, Reaches (record (QuadCore.step c) (QuadCore.note c)) (fun _ _ => True)
      (QuadCore.startFrom c memory, History.start c) (m, h) →
      (∀ p < c.outPipeCount, m.extOut p = writtenTo p h.records) ∧
        (Faithful c h.records ↔ FirstRound c (bootFrom memory).held h.records)) ∧
    ∀ m h, Reaches (record (SingleCore.step c) (SingleCore.note c)) (fun _ _ => True)
      (SingleCore.startFrom c memory, History.start c) (m, h) →
      (∀ p < c.outPipeCount, m.extOut p = writtenTo p h.records) ∧
        (Faithful c h.records ↔ FirstRound c (bootFrom memory).held h.records) := by
  constructor
  · intro m h hreach
    obtain ⟨hout, hfaithful, -⟩ := QuadCore.sourced hpos hreach
    exact ⟨hout, hfaithful⟩
  · intro m h hreach
    obtain ⟨hout, hfaithful, -⟩ := SingleCore.sourced hpos hreach
    exact ⟨hout, hfaithful⟩

/-- The records of the build for several cores, from start-up on the given memory. -/
abbrev Recorded (c : Config) (memory : ℕ → ReplicaR) : QuadCore.Machine × History → Prop :=
  Reaches (record (QuadCore.step c) (QuadCore.note c)) (fun _ _ => True)
    (QuadCore.startFrom c memory, History.start c)

/-- The record of a list of actions. -/
def recording (c : Config) (memory : ℕ → ReplicaR) (acts : List Act) : QuadCore.Machine × History :=
  follow (record (QuadCore.step c) (QuadCore.note c)) acts
    (QuadCore.startFrom c memory, History.start c)

/-- `malloc` gave memory in which every replica has a count `n` on pipe 0. -/
def usedMemory (n : ℕ) (_ : ℕ) : ReplicaR := ⟨0, fun p => if p = 0 then n else 0, fun _ _ => 170⟩

/-- A round in which a lone replica answers with a command, and with nothing else. -/
def commandRound : List Act :=
  [Act.externalWrites 0 [1]] ++ QuadCore.voterSteps 3 ++ [Act.replicaWrites 0 1 [5]] ++
    QuadCore.voterSteps 4

theorem faithful_commandRound :
    Faithful (artPotConfig "SMR")
      (recording (artPotConfig "SMR") (usedMemory 0) commandRound).2.records := by
  have hreach : Recorded (artPotConfig "SMR") (usedMemory 0)
      (recording (artPotConfig "SMR") (usedMemory 0) commandRound) :=
    reaches_follow (allSteps_true _ _) (by decide +kernel)
  have hiff := ((faithful_iff_firstRound (by decide +kernel) (usedMemory 0)).1 _ _ hreach).2
  -- all counts are 0
  refine hiff.mpr fun u before hfirst p hp hnone => ?_
  have hcount : ((bootFrom (usedMemory 0)).replicas u).buffCounts p = 0 := ite_self 0
  exact buffCounts_eq_zero_iff.mp hcount

/-- Two bytes nobody wrote are sent as the request of a waypoint. -/
theorem not_faithful_usedMemory :
    Recorded (artPotConfig "SMR") (usedMemory 2)
      (recording (artPotConfig "SMR") (usedMemory 2) commandRound) ∧
    (recording (artPotConfig "SMR") (usedMemory 2) commandRound).1.extOut 0 = [170, 170] ∧
    ¬ Faithful (artPotConfig "SMR")
      (recording (artPotConfig "SMR") (usedMemory 2) commandRound).2.records :=
  ⟨reaches_follow (allSteps_true _ _) (by decide +kernel), by decide +kernel, by decide +kernel⟩

/-- **Output of killed processes.** In every run from start-up, nothing that was read from a
process is sent after the process was killed, if and only if in SMR output of the restarted
replica is read, before `sendData`, on every pipe on which output of its predecessor had been
read in the round. -/
theorem noneFromKilled_iff_readAgain (hpos : 0 < c.repCount) (memory : ℕ → ReplicaR) :
    (∀ m h, Reaches (record (QuadCore.step c) (QuadCore.note c)) (fun _ _ => True)
      (QuadCore.startFrom c memory, History.start c) (m, h) →
      (∀ p < c.outPipeCount, m.extOut p = writtenTo p h.records) ∧
        (NoneFromKilled c h.records ↔ (c.repCount = 1 → ReadAgain c h.records))) ∧
    ∀ m h, Reaches (record (SingleCore.step c) (SingleCore.note c)) (fun _ _ => True)
      (SingleCore.startFrom c memory, History.start c) (m, h) →
      (∀ p < c.outPipeCount, m.extOut p = writtenTo p h.records) ∧
        (NoneFromKilled c h.records ↔ (c.repCount = 1 → ReadAgain c h.records)) := by
  constructor
  · intro m h hreach
    obtain ⟨hout, -, hnone⟩ := QuadCore.sourced hpos hreach
    exact ⟨hout, hnone⟩
  · intro m h hreach
    obtain ⟨hout, -, hnone⟩ := SingleCore.sourced hpos hreach
    exact ⟨hout, hnone⟩

/-- A lone replica requests a waypoint and hangs. The one started in its place sends a command
only. -/
def requestAndHang : List Act :=
  [Act.externalWrites 0 [1]] ++ QuadCore.voterSteps 3 ++ [Act.replicaWrites 0 0 [7]] ++
    QuadCore.voterSteps 4 ++ [Act.tick 3000000, .voter true, .replicaWrites 0 1 [5]] ++
    QuadCore.voterSteps 4

/-- Replica 1 of two hangs behind its request, and is replaced. -/
def requestOfTwo : List Act :=
  [Act.externalWrites 0 [1]] ++ QuadCore.voterSteps 3 ++
    [Act.replicaWrites 0 0 [7], .replicaWrites 0 1 [5], .replicaWrites 1 0 [8]] ++
    QuadCore.voterSteps 6 ++ [Act.tick 3000000, .voter true]

theorem noneFromKilled_requestOfTwo :
    (recording (artPotConfig "DMR") (usedMemory 2) requestOfTwo).1.log =
      [.sent 0, .killed 1, .received 0] ∧
    NoneFromKilled (artPotConfig "DMR")
      (recording (artPotConfig "DMR") (usedMemory 2) requestOfTwo).2.records := by
  have hreach : Recorded (artPotConfig "DMR") (usedMemory 2)
      (recording (artPotConfig "DMR") (usedMemory 2) requestOfTwo) :=
    reaches_follow (allSteps_true _ _) (by decide +kernel)
  refine ⟨by decide +kernel, ?_⟩
  have hiff := ((noneFromKilled_iff_readAgain (by decide +kernel) (usedMemory 2)).1 _ _ hreach).2
  exact hiff.mpr fun hone => absurd hone (by decide +kernel)

/-- The request of the hung process is sent with the command of the one in its place. -/
theorem killed_requestAndHang :
    Recorded (artPotConfig "SMR") (usedMemory 0)
      (recording (artPotConfig "SMR") (usedMemory 0) requestAndHang) ∧
    (recording (artPotConfig "SMR") (usedMemory 0) requestAndHang).1.log =
      [.sent 0, .killed 0, .received 0] ∧
    (recording (artPotConfig "SMR") (usedMemory 0) requestAndHang).1.extOut 0 = [7] ∧
    ¬ NoneFromKilled (artPotConfig "SMR")
      (recording (artPotConfig "SMR") (usedMemory 0) requestAndHang).2.records := by
  have hreach : Recorded (artPotConfig "SMR") (usedMemory 0)
      (recording (artPotConfig "SMR") (usedMemory 0) requestAndHang) :=
    reaches_follow (allSteps_true _ _) (by decide +kernel)
  refine ⟨hreach, by decide +kernel, by decide +kernel, fun hnone => ?_⟩
  have hagain := (QuadCore.sourced (by decide +kernel) hreach).2.2.mp hnone (by decide +kernel)
  exact absurd hagain (by decide +kernel)

end Runs

end S3RES.VoterM
