import S3RES.VoterD.Alignment

/-!
# The cursors of the vote pipes

`compareBuffs` and `sendPipe` rely on the vote pipes of one out pipe being in step, while
`sendPipe` itself advances them one after the other, and a restart resets those of one replica
and fills them again pipe by pipe. `stepCalls` lists the calls that a step makes, each with the
state it is made in; `calls_inOrder` says how far the cursors agree at each of them, and that
none of the three functions meets a case it cannot handle.
-/

namespace S3RES.VoterD

open Loop Memory StepSystem

/-! ### The calls of a step -/

/-- A call of one of the functions on vote pipes. -/
inductive Call
  | compareBuffs (r r' p n : ℕ)
  | buffToPipe (r p n : ℕ)
  | fakeToPipe (r p n : ℕ)

/-- The pipe it is about. -/
def Call.pipe : Call → ℕ
  | .compareBuffs _ _ p _ => p
  | .buffToPipe _ p _ => p
  | .fakeToPipe _ p _ => p

/-- The replica whose cursor it moves; the slots before it were advanced already. -/
def Call.slot : Call → ℕ
  | .compareBuffs _ _ _ _ => 0
  | .buffToPipe r _ _ => r
  | .fakeToPipe r _ _ => r

/-- A call, the state it is made in, and the replica that is being restarted. -/
structure Entry where
  state : State
  call : Call
  restartee : Option ℕ

/-- The calls of one round of `sendPipe`. `buffToPipe` ends with `fakeToPipe`. -/
def sendRoundCalls (restartee : Option ℕ) (pipeNum replicaNum bytesAvail r : ℕ) (s : State) :
    List Entry :=
  if replicaNum = r then
    ⟨s, .buffToPipe r pipeNum bytesAvail, restartee⟩ ::
      if bytesAvail > (s.vot r pipeNum).buffCount then []
      else [⟨s, .fakeToPipe r pipeNum bytesAvail, restartee⟩]
  else [⟨s, .fakeToPipe r pipeNum bytesAvail, restartee⟩]

/-- The calls of `sendPipe`. -/
def sendPipeCalls (c : Config) (s : State) (restartee : Option ℕ) (pipeNum replicaNum : ℕ) :
    List Entry :=
  let bytesAvail := bytesReady s.replicas c.repCount pipeNum
  if bytesAvail = 0 then []
  else (List.range c.repCount).flatMap fun r =>
    sendRoundCalls restartee pipeNum replicaNum bytesAvail r
      (loop (sendRound pipeNum replicaNum bytesAvail) r (stopTimer c s pipeNum))

/-- The calls of one round of the copy loop. -/
def copyAndSendCalls (c : Config) (restartee restarter i : ℕ) (s : State) : List Entry :=
  if (s.vot restarter i).fdIn ≠ 0 then
    sendPipeCalls c (s.setVot restartee i (copyPipe (s.vot restartee i) (s.vot restarter i)))
      restartee i restarter
  else []

/-- The calls of `restart_prep`. -/
def restartPrepCalls (c : Config) (s : State) (restartee restarter : ℕ)
    (sched : ℕ → ℕ → Bool) : List Entry :=
  let s := stealPipes s restarter
  let s := { s with timerStarted := false }
  let s := restartReplica c s restarter restartee sched
  (List.range c.pipeCount).flatMap fun i =>
    copyAndSendCalls c restartee restarter i (loop (copyAndSend c restartee restarter) i s)

/-- The calls of `voterRestartHandler`. -/
def voterRestartHandlerCalls (c : Config) (s : State) (sched : ℕ → ℕ → Bool) : List Entry :=
  match c.repType with
  | .dmr | .tmr =>
    let restartee := behindRep s.replicas c.repCount (c.timerStopIndex s.currentTimer)
    let restarter := (restartee + (c.repCount - 1)) % c.repCount
    restartPrepCalls c s restartee restarter sched
  | _ => []

/-- The calls of the TMR loop over the given rounds. -/
def checkTmrCalls (c : Config) (s : State) (pipeNum bytesAvail : ℕ) (sched : ℕ → ℕ → Bool) :
    List ℕ → List Entry
  | [] => []
  | rIndex :: rest =>
    ⟨s, .compareBuffs rIndex ((rIndex + 1) % c.repCount) pipeNum bytesAvail, none⟩ ::
      if compareBuffs (s.vot rIndex pipeNum) (s.vot ((rIndex + 1) % c.repCount) pipeNum)
          bytesAvail = 0 then
        ⟨s, .compareBuffs rIndex ((rIndex + 2) % c.repCount) pipeNum bytesAvail, none⟩ ::
          if compareBuffs (s.vot rIndex pipeNum) (s.vot ((rIndex + 2) % c.repCount) pipeNum)
              bytesAvail ≠ 0 then
            restartPrepCalls c s ((rIndex + 2) % c.repCount) rIndex sched
          else sendPipeCalls c s none pipeNum rIndex
      else checkTmrCalls c s pipeNum bytesAvail sched rest

/-- The calls of `checkSDC`. -/
def checkSDCCalls (c : Config) (s : State) (pipeNum : ℕ) (sched : ℕ → ℕ → Bool) : List Entry :=
  let bytesAvail := bytesReady s.replicas c.repCount pipeNum
  if bytesAvail = 0 then []
  else
    match c.repType with
    | .smr => sendPipeCalls c s none pipeNum 0
    | .dmr => ⟨s, .compareBuffs 0 1 pipeNum bytesAvail, none⟩ :: sendPipeCalls c s none pipeNum 0
    | .tmr => checkTmrCalls c s pipeNum bytesAvail sched (List.range c.repCount)
    | _ => []

/-- The calls of a step. -/
def stepCalls (c : Config) (s : State) : Act → List Entry
  | .update sched =>
    match s.point with
    | .update => if Expired c s then voterRestartHandlerCalls c s sched else []
    | _ => []
  | .vote sched =>
    match s.point with
    | .vote p _ _ => checkSDCCalls c (balance c s (sched 0)) p sched
    | _ => []
  | _ => []

/-! ### Cursors at a call -/

/-- Replica `r` is in step on pipe `p`: the `sendPipe` that makes the call has not advanced it
there, and it is not the replica that is being restarted, on a pipe that is still to be copied. -/
def Entry.InStep (k : Entry) (r p : ℕ) : Prop :=
  (p = k.call.pipe → k.call.slot ≤ r) ∧ (k.call.pipe < p → k.restartee ≠ some r)

/-- A call that does what its caller relies on. -/
def Entry.Returns (k : Entry) : Prop :=
  match k.call with
  | .compareBuffs r r' p _ => (k.state.vot r p).buffIndex = (k.state.vot r' p).buffIndex
  | .buffToPipe r p n => (buffToPipe (k.state.vot r p) n).1 ≠ -1
  | .fakeToPipe r p n => n ≤ (k.state.vot r p).buffCount

/-- The cursors are in order at a call. -/
structure InOrder (c : Config) (k : Entry) : Prop where
  valid : ∀ p < c.pipeCount, c.IsOut p → ∀ r < c.repCount, (k.state.vot r p).Valid
  index : ∀ p < c.pipeCount, c.IsOut p → ∀ r < c.repCount, ∀ r' < c.repCount,
    k.InStep r p → k.InStep r' p → (k.state.vot r p).buffIndex = (k.state.vot r' p).buffIndex
  returns : k.Returns

variable {c : Config} {s t : State} {u v p n : ℕ} {k : Entry}

/-! ### `sendPipe` -/

/-- The first `m` rounds advance the first `m` vote pipes. -/
theorem vot_sendLoop (hn : n ≤ (s.vot u p).buffCount) (m r q : ℕ) :
    (loop (sendRound p u n) m s).vot r q =
      if r < m ∧ q = p then fakeToPipe (s.vot r q) n else s.vot r q := by
  refine loop_induction (s := s) (fun m t => ∀ r q, t.vot r q =
    if r < m ∧ q = p then fakeToPipe (s.vot r q) n else s.vot r q)
    (by simp) (fun m _ t ht r q => ?_) r q
  have hm : t.vot m p = s.vot m p := by rw [ht, if_neg (by simp)]
  have hround : (sendRound p u n m t).vot r q =
      if r = m ∧ q = p then fakeToPipe (t.vot m p) n else t.vot r q := by
    simp only [sendRound]
    split
    · rename_i hum
      rw [← buffToPipe_content (hm ▸ hum ▸ hn)]
      exact vot_setVot t m p _ r q
    · exact vot_setVot t m p _ r q
  rw [hround, hm, ht]
  rcases eq_or_ne q p with rfl | hq
  · rcases lt_trichotomy r m with h | rfl | h
    · simp [h, h.ne, h.trans m.lt_succ_self]
    · simp
    · simp [h.ne', h.not_gt, show ¬ r < m + 1 by omega]
  · simp [hq]

/-- The cursors before a `sendPipe` on pipe `p`, in a restart of `restartee`. -/
structure Sendable (c : Config) (s : State) (restartee : Option ℕ) (p : ℕ) : Prop where
  synced : Synced c s p
  valid : ∀ q < c.pipeCount, c.IsOut q → ∀ r < c.repCount, (s.vot r q).Valid
  index : ∀ q < c.pipeCount, c.IsOut q → ∀ r < c.repCount, ∀ r' < c.repCount,
    (p < q → restartee ≠ some r) → (p < q → restartee ≠ some r') →
      (s.vot r q).buffIndex = (s.vot r' q).buffIndex

/-- Outside a restart all pipes are in step. -/
theorem sendable_of_synced (hs : ∀ q < c.pipeCount, c.IsOut q → Synced c s q)
    (hp : p < c.pipeCount) (hout : c.IsOut p) : Sendable c s none p :=
  ⟨hs p hp hout, fun q hq hqout => (hs q hq hqout).valid,
    fun q hq hqout r hr r' hr' _ _ => (hs q hq hqout).index r hr r' hr'⟩

/-- The calls of a round are about slot `r` of pipe `p`, which has the bytes. -/
theorem mem_sendRoundCalls {restartee : Option ℕ} {r : ℕ} (hn : n ≤ (s.vot r p).buffCount)
    (hk : k ∈ sendRoundCalls restartee p u n r s) :
    k.state = s ∧ k.restartee = restartee ∧ k.call.pipe = p ∧ k.call.slot = r ∧ k.Returns := by
  have hfake : Entry.Returns ⟨s, .fakeToPipe r p n, restartee⟩ := hn
  have hbuff : Entry.Returns ⟨s, .buffToPipe r p n, restartee⟩ := by
    have hzero : (buffToPipe (s.vot r p) n).1 = 0 := by
      rw [buffToPipe, if_neg (by omega)]
      split <;> rfl
    change (buffToPipe (s.vot r p) n).1 ≠ -1
    rw [hzero]
    decide
  rw [sendRoundCalls, if_neg (c := n > (s.vot r p).buffCount) (by omega)] at hk
  split at hk
  · rcases List.mem_cons.mp hk with rfl | hk
    · exact ⟨rfl, rfl, rfl, rfl, hbuff⟩
    · obtain rfl := List.mem_singleton.mp hk
      exact ⟨rfl, rfl, rfl, rfl, hfake⟩
  · obtain rfl := List.mem_singleton.mp hk
    exact ⟨rfl, rfl, rfl, rfl, hfake⟩

theorem inOrder_of_mem_sendPipeCalls {restartee : Option ℕ} (h : Sendable c s restartee p)
    (hu : u < c.repCount) (hk : k ∈ sendPipeCalls c s restartee p u) : InOrder c k := by
  rw [sendPipeCalls] at hk
  change k ∈ if ready c s p = 0 then [] else _ at hk
  split at hk
  · cases hk
  obtain ⟨m, hm, hk⟩ := List.mem_flatMap.mp hk
  have hm := List.mem_range.mp hm
  have hn : ∀ r < c.repCount, ready c s p ≤ (s.vot r p).buffCount := fun r hr =>
    ready_le c s p hr
  change k ∈ sendRoundCalls restartee p u (ready c s p) m
    (loop (sendRound p u (ready c s p)) m (stopTimer c s p)) at hk
  generalize ready c s p = n at hk hn
  set t := loop (sendRound p u n) m (stopTimer c s p) with ht
  have hvot : ∀ r q, t.vot r q = if r < m ∧ q = p then fakeToPipe (s.vot r q) n else s.vot r q := by
    have hstop : (stopTimer c s p).vot = s.vot := by
      rw [stopTimer]
      split <;> rfl
    intro r q
    have hloop := vot_sendLoop (s := stopTimer c s p) (u := u) (p := p) (n := n)
      (by rw [hstop]; exact hn u hu) m r q
    rwa [hstop] at hloop
  have hm' : t.vot m p = s.vot m p := by rw [hvot, if_neg (by simp)]
  obtain ⟨hstate, hrestartee, hpipe, hslot, hreturns⟩ :=
    mem_sendRoundCalls (by rw [hm']; exact hn m hm) hk
  refine ⟨fun q hq hqout r hr => ?_, fun q hq hqout r hr r' hr' hr₁ hr₂ => ?_, hreturns⟩
  · rw [hstate, hvot]
    split
    · exact fakeToPipe_valid (h.valid q hq hqout r hr) n
    · exact h.valid q hq hqout r hr
  · rw [Entry.InStep, hpipe, hslot, hrestartee] at hr₁ hr₂
    rw [hstate, hvot, hvot, if_neg fun h => absurd (hr₁.1 h.2) (by omega),
      if_neg fun h => absurd (hr₂.1 h.2) (by omega)]
    exact h.index q hq hqout r hr r' hr' hr₁.2 hr₂.2

/-! ### Restarts -/

/-- The vote pipes of a slot that was restarted are reset. -/
theorem vot_restartReplica (h : Plumbed c s) (hv : v < c.repCount) (sched : ℕ → ℕ → Bool)
    (hp : p < c.pipeCount) : ((restartReplica c s u v sched).vot v p).buffIndex = 0 ∧
      ((restartReplica c s u v sched).vot v p).buffCount = 0 := by
  simp only [restartReplica, vot_balance]
  set s₂ : State := { s with
    fds := cleanupReplica (s.replicas v) s.fds
    replicas := favour c u v (sched 1) s.replicas } with hs₂
  have hcount : (s₂.replicas v).pipeCount = c.pipeCount :=
    (favour_proj Replica.pipeCount (fun _ _ => rfl) ..).trans (h.pipeCount hv)
  have hreset : ((reinit c s₂ v 0).replicas v).votPipes p = resetVotePipe (s₂.vot v p) := by
    simp [reinit, initReplica, hcount, hp, State.vot]
  simp only [State.vot, newPipes, Function.update_self]
  constructor
  · rw [createPipes_votPipes VotePipe.buffIndex fun _ _ _ _ => rfl, hreset]
    rfl
  · rw [createPipes_votPipes VotePipe.buffCount fun _ _ _ _ => rfl, hreset]
    rfl

theorem inOrder_of_mem_restartPrepCalls (hplumbed : Plumbed c s)
    (hs : ∀ q < c.pipeCount, c.IsOut q → Synced c s q) (hu : u < c.repCount)
    (hv : v < c.repCount) (huv : u ≠ v) {sched : ℕ → ℕ → Bool}
    (hk : k ∈ restartPrepCalls c s v u sched) : InOrder c k := by
  simp only [restartPrepCalls] at hk
  set s₂ : State := { stealPipes s u with timerStarted := false } with hs₂
  have hreplicas : s₂.replicas = s.replicas := by rw [hs₂, stealPipes_eq]
  have hplumbed₂ : Plumbed c s₂ := by
    refine hplumbed.congr (by rw [hs₂, stealPipes_eq]) ?_
    funext r
    simp only [State.plumbing, hreplicas]
  have hforked := forked_restartReplica hplumbed₂ hu hv huv sched
  have hfresh := fun q => vot_restartReplica (u := u) (p := q) hplumbed₂ hv sched
  set s₃ := restartReplica c s₂ u v sched with hs₃
  have hvot₃ : ∀ r ≠ v, ∀ q, s₃.vot r q = s.vot r q := fun r hr q =>
    (hforked.vot r hr q).trans (by simp only [State.vot, hreplicas])
  have hbut : ∀ q < c.pipeCount, c.IsOut q → SyncedBut c s₃ v q := fun q hq hout =>
    ((hs q hq hout).but v).congr fun r hr => hvot₃ r hr q
  obtain ⟨i, hi, hk⟩ := List.mem_flatMap.mp hk
  have hi := List.mem_range.mp hi
  have htimer : s₃.timerStarted = false := hforked.timerStarted.trans (by rw [hs₂])
  have hcopied := copiedTo_loop hforked.plumbed hbut hu hv huv htimer hi.le
  set t := loop (copyAndSend c v u) i s₃ with ht
  rw [copyAndSendCalls] at hk
  split at hk
  · rename_i hfd
    have hout : c.IsOut i :=
      ((hforked.plumbed.congr hcopied.fds hcopied.plumbing).fdIn_ne_zero_iff hu hi).mp hfd
    refine inOrder_of_mem_sendPipeCalls ?_ hu hk
    have hsynced : Synced c (t.setVot v i (copyPipe (t.vot v i) (t.vot u i))) i := by
      have hbut' := (hbut i hi hout).congr fun r _ => (hcopied.rest i le_rfl).vot r
      exact hbut'.setVot hu huv (copyPipe_valid (hbut'.valid u hu huv)) (copyPipe_buffIndex _ _)
    have hother : ∀ q ≠ i, ∀ r,
        (t.setVot v i (copyPipe (t.vot v i) (t.vot u i))).vot r q = t.vot r q := by
      intro q hq r
      rw [vot_setVot, if_neg fun h => hq h.2]
    have hbefore : ∀ q < i, c.IsOut q → Synced c t q := fun q hq hqout =>
      (hcopied.replaced q hq hqout).synced (hbut q (hq.trans hi) hqout) hu huv
    refine ⟨hsynced, fun q hq hqout r hr => ?_, fun q hq hqout r hr r' hr' hr₁ hr₂ => ?_⟩
    · rcases lt_trichotomy q i with hlt | rfl | hlt
      · rw [hother q hlt.ne]
        exact (hbefore q hlt hqout).valid r hr
      · exact hsynced.valid r hr
      · rw [hother q hlt.ne', (hcopied.rest q hlt.le).vot]
        by_cases hrv : r = v
        · obtain ⟨hindex, hcount⟩ := hfresh q hq
          exact ⟨by rw [hrv, hindex]; exact maxVotePipeBuff_pos,
            by rw [hrv, hcount]; exact maxVotePipeBuff_pos⟩
        · exact (hbut q hq hqout).valid r hr hrv
    · rcases lt_trichotomy q i with hlt | rfl | hlt
      · rw [hother q hlt.ne, hother q hlt.ne]
        exact (hbefore q hlt hqout).index r hr r' hr'
      · exact hsynced.index r hr r' hr'
      -- behind the pipe that is sent, the restarted slot is left out
      · rw [hother q hlt.ne', hother q hlt.ne', (hcopied.rest q hlt.le).vot,
          (hcopied.rest q hlt.le).vot]
        exact (hbut q hq hqout).index r hr (fun h => hr₁ hlt (congrArg some h.symm)) r' hr'
          fun h => hr₂ hlt (congrArg some h.symm)
  · cases hk

/-! ### Votes -/

/-- A comparison of replicas that are in step. -/
theorem inOrder_compareBuffs (hs : ∀ q < c.pipeCount, c.IsOut q → Synced c s q)
    (hp : p < c.pipeCount) (hout : c.IsOut p) {r r' : ℕ} (hr : r < c.repCount)
    (hr' : r' < c.repCount) (n : ℕ) : InOrder c ⟨s, .compareBuffs r r' p n, none⟩ :=
  ⟨fun q hq hqout => (hs q hq hqout).valid,
    fun q hq hqout r₁ hr₁ r₂ hr₂ _ _ => (hs q hq hqout).index r₁ hr₁ r₂ hr₂,
    (hs p hp hout).index r hr r' hr'⟩

theorem inOrder_of_mem_checkTmrCalls (hplumbed : Plumbed c s)
    (hs : ∀ q < c.pipeCount, c.IsOut q → Synced c s q) (hp : p < c.pipeCount) (hout : c.IsOut p)
    (htype : c.repType = .tmr) {sched : ℕ → ℕ → Bool} {rest : List ℕ}
    (hrest : ∀ r ∈ rest, r < c.repCount) (hk : k ∈ checkTmrCalls c s p n sched rest) :
    InOrder c k := by
  have hcount : c.repCount = 3 := by rw [Config.repCount, htype]; rfl
  have hpos : 0 < c.repCount := by omega
  induction rest with
  | nil => cases hk
  | cons r rest ih =>
    have hr : r < c.repCount := hrest r (.head rest)
    rw [checkTmrCalls] at hk
    rcases List.mem_cons.mp hk with rfl | hk
    · exact inOrder_compareBuffs hs hp hout hr (Nat.mod_lt _ hpos) n
    split at hk
    · rcases List.mem_cons.mp hk with rfl | hk
      · exact inOrder_compareBuffs hs hp hout hr (Nat.mod_lt _ hpos) n
      split at hk
      · refine inOrder_of_mem_restartPrepCalls hplumbed hs hr (Nat.mod_lt _ hpos) ?_ hk
        rw [hcount] at hr ⊢
        omega
      · exact inOrder_of_mem_sendPipeCalls (sendable_of_synced hs hp hout) hr hk
    · exact ih (fun r hr => hrest r (.tail _ hr)) hk

theorem inOrder_of_mem_checkSDCCalls (hplumbed : Plumbed c s)
    (hs : ∀ q < c.pipeCount, c.IsOut q → Synced c s q) (hp : p < c.pipeCount) (hout : c.IsOut p)
    (hpos : 0 < c.repCount) {sched : ℕ → ℕ → Bool} (hk : k ∈ checkSDCCalls c s p sched) :
    InOrder c k := by
  have hsend : ∀ k ∈ sendPipeCalls c s none p 0, InOrder c k := fun k hk =>
    inOrder_of_mem_sendPipeCalls (sendable_of_synced hs hp hout) hpos hk
  simp only [checkSDCCalls] at hk
  split at hk
  · cases hk
  cases htype : c.repType with
  | none | repTypeError => simp [Config.repCount, htype, reptypeToCount] at hpos
  | smr =>
    rw [htype] at hk
    exact hsend k hk
  | dmr =>
    have hcount : c.repCount = 2 := by rw [Config.repCount, htype]; rfl
    rw [htype] at hk
    rcases List.mem_cons.mp hk with rfl | hk
    · exact inOrder_compareBuffs hs hp hout hpos (by omega) _
    · exact hsend k hk
  | tmr =>
    rw [htype] at hk
    exact inOrder_of_mem_checkTmrCalls hplumbed hs hp hout htype
      (fun r hr => List.mem_range.mp hr) hk

theorem inOrder_of_mem_voterRestartHandlerCalls (hplumbed : Plumbed c s)
    (hs : ∀ q < c.pipeCount, c.IsOut q → Synced c s q) (hpos : 0 < c.repCount)
    {sched : ℕ → ℕ → Bool} (hk : k ∈ voterRestartHandlerCalls c s sched) : InOrder c k := by
  have hlt := behindRep_lt s.replicas (c.timerStopIndex s.currentTimer) hpos
  have hparent : 2 ≤ c.repCount → c.repCount ≤ 3 →
      (behindRep s.replicas c.repCount (c.timerStopIndex s.currentTimer) + (c.repCount - 1)) %
        c.repCount ≠ behindRep s.replicas c.repCount (c.timerStopIndex s.currentTimer) := by
    generalize behindRep s.replicas c.repCount (c.timerStopIndex s.currentTimer) = v at hlt
    intro h₂ h₃
    interval_cases c.repCount <;> omega
  cases htype : c.repType with
  | none | repTypeError | smr => simp [voterRestartHandlerCalls, htype] at hk
  | dmr =>
    have hcount : c.repCount = 2 := by rw [Config.repCount, htype]; rfl
    rw [voterRestartHandlerCalls, htype] at hk
    exact inOrder_of_mem_restartPrepCalls hplumbed hs (Nat.mod_lt _ hpos) hlt
      (hparent (by omega) (by omega)) hk
  | tmr =>
    have hcount : c.repCount = 3 := by rw [Config.repCount, htype]; rfl
    rw [voterRestartHandlerCalls, htype] at hk
    exact inOrder_of_mem_restartPrepCalls hplumbed hs (Nat.mod_lt _ hpos) hlt
      (hparent (by omega) (by omega)) hk

/-! ### Runs -/

/-- The calls of a step from a state that is well formed. -/
theorem WellFormed.inOrder (h : WellFormed c s) {a : Act} (hk : k ∈ stepCalls c s a) :
    InOrder c k := by
  cases a with
  | update sched =>
    simp only [stepCalls] at hk
    split at hk
    · split at hk
      · exact inOrder_of_mem_voterRestartHandlerCalls h.plumbed h.synced h.pos hk
      · cases hk
    · cases hk
  | vote sched =>
    simp only [stepCalls] at hk
    split at hk
    · rename_i p ready todo hpoint
      have hrange := h.inRange
      rw [hpoint] at hrange
      have hsame := samePipes_balance c s (sched 0)
      exact inOrder_of_mem_checkSDCCalls (h.plumbed.congr hsame.fds hsame.plumbing)
        (fun q hq hqout => (h.synced q hq hqout).congr fun r _ => vot_balance c s (sched 0) r q)
        hrange.1 hrange.2.1 h.pos hk
    · cases hk
  | _ => cases hk

/-- **The cursors of the vote pipes.** Between the steps of any run from zeroed vote pipes, all
replicas have the same cursor on each out pipe. At each call of `compareBuffs`, `buffToPipe` and
`fakeToPipe` all cursors are in range, those of the replicas that are in step are the same, the
comparison is not one of different indices, and the bytes are there. -/
theorem calls_inOrder {fds : List ℕ} {now : ℕ} (hpos : 0 < c.repCount) (h0 : 0 ∈ fds)
    (hext : ∀ p < c.pipeCount, (c.extPipes p).fdIn ∈ fds)
    (hreach : Reaches (step c) (fun _ _ => True)
      (initVoterD c (boot (fun _ _ => zeroPipe) fds now)) s) :
    (∀ p < c.pipeCount, c.IsOut p → Synced c s p) ∧
      ∀ a, ∀ k ∈ stepCalls c s a, InOrder c k := by
  have hinit : Initial c (initVoterD c (boot (fun _ _ => zeroPipe) fds now)) :=
    initial_initVoterD now hpos h0 hext fun _ _ _ _ _ => ⟨maxVotePipeBuff_pos, rfl⟩
  have hwf := wellFormed_of_reaches hinit hreach
  exact ⟨hwf.synced, fun a k hk => hwf.inOrder hk⟩

/-- The three replicas of `rangerConfig` write one byte each, and the last of them has been read. -/
def unanimous : List Act :=
  [.replicaWrites 0 1 [65], .replicaWrites 1 1 [65], .replicaWrites 2 1 [65], .update granted,
    .select, .external granted, .scan, .scan, .scan, .scan, .vote granted, .scan, .vote granted,
    .scan]

/-- The calls of the vote: two comparisons, and the pipe of each replica advanced. -/
theorem calls_inOrder_unanimous :
    (stepCalls rangerConfig (follow (step rangerConfig) unanimous (start rangerConfig 6))
      (.vote granted)).length = 6 ∧
    ∀ k ∈ stepCalls rangerConfig (follow (step rangerConfig) unanimous (start rangerConfig 6))
      (.vote granted), InOrder rangerConfig k :=
  ⟨by decide +kernel, (calls_inOrder (by decide +kernel) (by decide) (by decide +kernel)
    (reaches_follow (allSteps_true _ _) (by decide +kernel))).2 (.vote granted)⟩

/-- At the calls that advance replicas 1 and 2, replica 0 has been advanced already. -/
theorem calls_not_equal : ∃ s, Reaches (step rangerConfig) (fun _ _ => True)
    (start rangerConfig 6) s ∧ rangerConfig.repType = .tmr ∧ rangerConfig.IsOut 1 ∧
      ∃ k ∈ stepCalls rangerConfig s (.vote granted),
        (k.state.vot 0 1).buffIndex ≠ (k.state.vot 1 1).buffIndex :=
  ⟨follow (step rangerConfig) unanimous (start rangerConfig 6),
    reaches_follow (allSteps_true _ _) (by decide +kernel), by decide +kernel, by decide +kernel,
    by decide +kernel⟩

end S3RES.VoterD
