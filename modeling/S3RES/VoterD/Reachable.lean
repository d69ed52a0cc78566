import S3RES.VoterD.Restart

/-!
# Reachable states

`Initial` describes the states `initVoterD` leaves behind, `WellFormed` what holds in every
state reached from one: the descriptors are connected as they should be, the vote pipes of
every out pipe are in step, and the voter is working on pipes that exist.

`step_cases` says once what a step can do; every later argument about runs goes through it.
Most steps are `Quiet`: they leave the output of the replicas alone. The others are a write
of a replica, a read, a vote (`checkSDC_cases`) and the handling of an expired timer
(`voterRestartHandler_cases`).
-/

namespace S3RES.VoterD

open Loop Memory StepSystem

variable {c : Config} {s t : State}

/-! ### Delivering input -/

theorem startTimer_eq (timerIndex : ℕ → ℕ) (s : State) (p : ℕ) : ∃ started current watchdog,
    startTimer timerIndex s p =
      { s with timerStarted := started, currentTimer := current, watchdog := watchdog } := by
  simp only [startTimer]
  split_ifs
  · exact ⟨s.timerStarted, s.currentTimer, s.watchdog, rfl⟩
  · exact ⟨true, 0, s.now, rfl⟩
  · exact ⟨true, 1, s.now, rfl⟩
  · exact ⟨s.timerStarted, s.currentTimer, s.watchdog, rfl⟩

/-- The data of external pipe `p` written to every replica. -/
theorem loop_writeBuffer (s : State) (p n : ℕ) :
    loop (fun r s => writeBuffer s r p (s.extData p)) n s = { s with
      queue := fun r q => if r < n ∧ q = p then s.queue r q ++ s.extData p else s.queue r q } := by
  refine loop_induction (s := s) (fun k t => t = { s with
    queue := fun r q => if r < k ∧ q = p then s.queue r q ++ s.extData p else s.queue r q })
    (by simp) fun k _ t ht => ?_
  subst ht
  simp only [writeBuffer, State.setQueue]
  congr 1
  funext r q
  rcases eq_or_ne r k with rfl | hrk
  · rcases eq_or_ne q p with rfl | hq
    · simp
    · simp [hq]
  · have hiff : r < k + 1 ↔ r < k := by omega
    simp [hrk, hiff]

/-- Nothing happened to what the replicas send. -/
structure Quiet (c : Config) (s t : State) : Prop where
  vot : ∀ r p, t.vot r p = s.vot r p
  plumbing : t.plumbing = s.plumbing
  fds : t.fds = s.fds
  extOut : t.extOut = s.extOut
  queue : ∀ p, c.IsOut p → ∀ r, t.queue r p = s.queue r p
  procs : t.procs = s.procs
  log : ∃ l, t.log = l ++ s.log ∧ ∀ e ∈ l, (∃ p now, e = .delivered p now) ∨ e = .selected

theorem Quiet.of_eq (hvot : t.replicas = s.replicas) (hfds : t.fds = s.fds)
    (hextOut : t.extOut = s.extOut) (hqueue : t.queue = s.queue) (hprocs : t.procs = s.procs)
    (hlog : t.log = s.log) : Quiet c s t := by
  refine ⟨fun r p => ?_, ?_, hfds, hextOut, fun p _ r => ?_, hprocs, [], hlog, by simp⟩
  · simp only [State.vot, hvot]
  · funext r
    simp only [State.plumbing, hvot]
  · rw [hqueue]

theorem Quiet.refl (s : State) : Quiet c s s := .of_eq rfl rfl rfl rfl rfl rfl

theorem Quiet.trans {u : State} (h : Quiet c s t) (h' : Quiet c t u) : Quiet c s u := by
  obtain ⟨l, hl, hmem⟩ := h.log
  obtain ⟨l', hl', hmem'⟩ := h'.log
  refine ⟨fun r p => (h'.vot r p).trans (h.vot r p), h'.plumbing.trans h.plumbing,
    h'.fds.trans h.fds, h'.extOut.trans h.extOut,
    fun p hp r => (h'.queue p hp r).trans (h.queue p hp r), h'.procs.trans h.procs,
    l' ++ l, by rw [hl', hl, List.append_assoc], fun e he => ?_⟩
  rcases List.mem_append.mp he with he | he
  · exact hmem' e he
  · exact hmem e he

/-- Where the voter stands is not looked at. -/
theorem Quiet.setPoint (h : Quiet c s t) (point : Point) : Quiet c s { t with point := point } :=
  ⟨h.vot, h.plumbing, h.fds, h.extOut, h.queue, h.procs, h.log⟩

theorem quiet_startTimer (timerIndex : ℕ → ℕ) (s : State) (p : ℕ) :
    Quiet c s (startTimer timerIndex s p) := by
  obtain ⟨started, current, watchdog, heq⟩ := startTimer_eq timerIndex s p
  rw [heq]
  exact .of_eq rfl rfl rfl rfl rfl rfl

theorem quiet_balance (s : State) (sched : ℕ → Bool) : Quiet c s (balance c s sched) := by
  have h := samePipes_balance c s sched
  exact ⟨fun r p => vot_balance c s sched r p, h.plumbing, h.fds, rfl, fun p _ r => rfl, h.procs,
    [], rfl, by simp⟩

theorem quiet_processData {p : ℕ} (hp : ¬ c.IsOut p) (sched : ℕ → Bool) :
    Quiet c s (processData c s p sched) := by
  refine (quiet_startTimer c.timerStartIndex s p).trans ((quiet_balance _ sched).trans ?_)
  simp only [processData, loop_writeBuffer]
  set s' := balance c (startTimer c.timerStartIndex s p) sched
  have hqueue : ∀ q, c.IsOut q → ∀ r : ℕ, (if r < c.repCount ∧ q = p then
      s'.queue r q ++ s'.extData p else s'.queue r q) = s'.queue r q := by
    intro q hq r
    rw [if_neg]
    rintro ⟨-, rfl⟩
    exact hp hq
  split
  · exact ⟨fun _ _ => rfl, rfl, rfl, rfl, hqueue, rfl, [], rfl, by simp⟩
  · exact ⟨fun _ _ => rfl, rfl, rfl, rfl, hqueue, rfl, [.delivered p s'.now], rfl, by simp⟩

/-! ### Reading from a replica -/

/-- What a `read` of replica `r` on pipe `p` returns. -/
def chunk (s : State) (r p : ℕ) : List UInt8 := (s.queue r p).take maxVotePipeBuff

/-- The read fits the vote buffer. -/
def Fits (s : State) (r p : ℕ) : Prop :=
  (chunk s r p).length + (s.vot r p).buffCount < maxVotePipeBuff

instance (s : State) (r p : ℕ) : Decidable (Fits s r p) := inferInstanceAs (Decidable (_ < _))

/-- The effect of a `read` of replica `r` on pipe `p`. -/
structure ReadFrom (s t : State) (r p : ℕ) : Prop where
  vot : ∀ r' p', t.vot r' p' =
    if r' = r ∧ p' = p then (pipeToBuff (s.vot r p) (chunk s r p)).2 else s.vot r' p'
  plumbing : t.plumbing = s.plumbing
  fds : t.fds = s.fds
  extOut : t.extOut = s.extOut
  queue : ∀ r' p', t.queue r' p' =
    if r' = r ∧ p' = p then (s.queue r p).drop maxVotePipeBuff else s.queue r' p'
  procs : t.procs = s.procs
  log : Fits s r p → t.log = .taken r p (chunk s r p) :: s.log
  log_of_full : ¬ Fits s r p → t.log = s.log

theorem chunk_ne_nil {r p : ℕ} (h : s.queue r p ≠ []) : chunk s r p ≠ [] := by
  simpa [chunk, maxVotePipeBuff_pos.ne'] using h

theorem readFrom_readReplica {r p : ℕ} (hne : s.queue r p ≠ []) (ready : List ℕ)
    (todo : List (ℕ × ℕ)) :
    ReadFrom s (readReplica s p r ready todo) r p ∧
      (readReplica s p r ready todo).point =
        if Fits s r p then .vote p ready todo else .scan ready todo := by
  have hstored : (pipeToBuff (s.vot r p) (chunk s r p)).1 = 0 ↔ Fits s r p := by
    rw [pipeToBuff_eq_zero_iff, Fits]
    exact and_iff_right (chunk_ne_nil hne)
  have hfd : (pipeToBuff (s.vot r p) (chunk s r p)).2.fdIn = (s.vot r p).fdIn ∧
      (pipeToBuff (s.vot r p) (chunk s r p)).2.fdOut = (s.vot r p).fdOut := by
    rw [pipeToBuff_snd]
    split <;> exact ⟨rfl, rfl⟩
  set s' := (s.setQueue r p ((s.queue r p).drop maxVotePipeBuff)).setVot r p
    (pipeToBuff (s.vot r p) (chunk s r p)).2 with hs'
  have hsame : SamePipes (s.setQueue r p ((s.queue r p).drop maxVotePipeBuff)) s' :=
    samePipes_setVot _ hfd.1 hfd.2
  by_cases hfits : Fits s r p
  · have heq : readReplica s p r ready todo =
        { s' with point := .vote p ready todo, log := .taken r p (chunk s r p) :: s.log } :=
      if_pos (hstored.mpr hfits)
    rw [heq, if_pos hfits]
    exact ⟨⟨fun r' p' => vot_setVot _ _ _ _ _ _, hsame.plumbing, rfl, rfl,
      fun r' p' => queue_setQueue _ _ _ _ _ _, rfl, fun _ => rfl, fun h => absurd hfits h⟩, rfl⟩
  · have heq : readReplica s p r ready todo = { s' with point := .scan ready todo } :=
      if_neg (mt hstored.mp hfits)
    rw [heq, if_neg hfits]
    exact ⟨⟨fun r' p' => vot_setVot _ _ _ _ _ _, hsame.plumbing, rfl, rfl,
      fun r' p' => queue_setQueue _ _ _ _ _ _, rfl, fun h => absurd h hfits, fun _ => rfl⟩, rfl⟩

theorem ReadFrom.synced {r p q : ℕ} (h : ReadFrom s t r p) (hs : Synced c s q) :
    Synced c t q := by
  refine ⟨fun r' hr' => ?_, fun r₁ h₁ r₂ h₂ => ?_⟩
  · rw [h.vot]
    split
    · rename_i heq
      obtain ⟨rfl, rfl⟩ := heq
      exact pipeToBuff_valid (hs.valid _ hr') _
    · exact hs.valid r' hr'
  · have hindex : ∀ r', (t.vot r' q).buffIndex = (s.vot r' q).buffIndex := by
      intro r'
      rw [h.vot]
      split
      · rename_i heq
        obtain ⟨rfl, rfl⟩ := heq
        rw [pipeToBuff_snd]
        split <;> rfl
      · rfl
    rw [hindex, hindex]
    exact hs.index r₁ h₁ r₂ h₂

/-! ### Voting -/

/-- The outcomes of `checkSDC` on pipe `p`. -/
inductive Vote (c : Config) (s t : State) (p : ℕ) : Prop
  /-- What all replicas have is forwarded; three of them agree on it. -/
  | sent (u : ℕ) (hu : u < c.repCount) (ht : t = sendPipe c s p u)
      (hagree : c.repType = .tmr → ∀ r < c.repCount,
        (s.vot r p).content.take (ready c s p) = (s.vot u p).content.take (ready c s p))
  /-- One replica differs from the two others and is replaced. -/
  | outvoted (u v : ℕ) (sched : ℕ → ℕ → Bool) (htype : c.repType = .tmr) (hu : u < c.repCount)
      (hv : v < c.repCount) (huv : u ≠ v) (ht : t = restartPrep c s v u sched)
      (hagree : ∀ r < c.repCount, r ≠ v →
        (s.vot r p).content.take (ready c s p) = (s.vot u p).content.take (ready c s p))
      (hdiffer : (s.vot v p).content.take (ready c s p) ≠
        (s.vot u p).content.take (ready c s p))
  /-- No two replicas agree. -/
  | tied (htype : c.repType = .tmr) (ht : t = s)
      (hdiffer : ∀ r < c.repCount, ∀ r' < c.repCount, r ≠ r' →
        (s.vot r p).content.take (ready c s p) ≠ (s.vot r' p).content.take (ready c s p))

theorem compareBuffs_ready {p r r' : ℕ} (hs : Synced c s p) (hr : r < c.repCount)
    (hr' : r' < c.repCount) :
    compareBuffs (s.vot r p) (s.vot r' p) (ready c s p) = 0 ↔
      (s.vot r p).content.take (ready c s p) = (s.vot r' p).content.take (ready c s p) :=
  compareBuffs_eq_zero_iff (hs.valid r hr) (hs.index r hr r' hr') (ready_le c s p hr)
    (ready_le c s p hr')

/-- The three replicas of TMR, counted from any of them. -/
theorem tmr_cases {u r : ℕ} (hu : u < 3) (hr : r < 3) :
    r = u ∨ r = (u + 1) % 3 ∨ r = (u + 2) % 3 := by omega

/-- In TMR no replica agrees with the next one only if no two agree. -/
theorem tied_of_checkTmr {p : ℕ} (hs : Synced c s p) (htype : c.repType = .tmr)
    (sched : ℕ → ℕ → Bool)
    (hnone : ∀ r < c.repCount, checkTmr c s p (ready c s p) r sched = none) : Vote c s s p := by
  have hcount : c.repCount = 3 := by rw [Config.repCount, htype]; rfl
  have hnext : ∀ r < c.repCount, (s.vot r p).content.take (ready c s p) ≠
      (s.vot ((r + 1) % c.repCount) p).content.take (ready c s p) := by
    intro r hr heq
    have h := hnone r hr
    rw [checkTmr, if_pos ((compareBuffs_ready hs hr (Nat.mod_lt _ (by omega))).mpr heq)] at h
    split at h <;> simp at h
  refine .tied htype rfl fun r hr r' hr' hne heq => ?_
  rw [hcount] at hr hr' hnext
  rcases tmr_cases hr hr' with h | h | h
  · exact hne h.symm
  · exact hnext r hr (h ▸ heq)
  · refine hnext r' hr' ?_
    rw [show (r' + 1) % 3 = r by omega]
    exact heq.symm

/-- In TMR a replica that agrees with the next one is sent, and the third is checked. -/
theorem vote_of_checkTmr {p u : ℕ} (hs : Synced c s p) (htype : c.repType = .tmr)
    (sched : ℕ → ℕ → Bool) (hu : u < c.repCount)
    (hround : checkTmr c s p (ready c s p) u sched = some t) : Vote c s t p := by
  have hcount : c.repCount = 3 := by rw [Config.repCount, htype]; rfl
  have h₁ : (u + 1) % c.repCount < c.repCount := Nat.mod_lt _ (by omega)
  have h₂ : (u + 2) % c.repCount < c.repCount := Nat.mod_lt _ (by omega)
  simp only [checkTmr, ne_eq, ite_not, compareBuffs_ready hs hu h₁,
    compareBuffs_ready hs hu h₂, Option.ite_none_right_eq_some] at hround
  obtain ⟨hagree, hround⟩ := hround
  rw [hcount] at hu hagree h₁ h₂
  split at hround
  · rename_i hthird
    obtain rfl := Option.some.inj hround
    refine .sent u (hcount ▸ hu) rfl fun _ r hr => ?_
    rw [hcount] at hr hthird
    rcases tmr_cases hu hr with rfl | rfl | rfl
    · rfl
    · exact hagree.symm
    · exact hthird.symm
  · rename_i hthird
    obtain rfl := Option.some.inj hround
    rw [hcount] at hthird ⊢
    refine .outvoted u ((u + 2) % 3) sched htype (hcount ▸ hu) (hcount ▸ h₂) (by omega) rfl
      (fun r hr hne => ?_) fun heq => hthird heq.symm
    rw [hcount] at hr
    rcases tmr_cases hu hr with rfl | rfl | rfl
    · rfl
    · exact hagree.symm
    · exact absurd rfl hne

theorem checkSDC_cases {p : ℕ} (hs : Synced c s p) (hpos : 0 < c.repCount)
    (sched : ℕ → ℕ → Bool) : Vote c s (checkSDC c s p sched) p := by
  by_cases hzero : ready c s p = 0
  · have hskip : checkSDC c s p sched = s := by
      simp only [checkSDC]
      exact if_pos hzero
    refine .sent 0 hpos ?_ fun _ r _ => by simp [hzero]
    rw [hskip, sendPipe_eq hpos (hs.valid 0 hpos), if_pos hzero]
  cases htype : c.repType with
  | none | repTypeError => simp [Config.repCount, htype, reptypeToCount] at hpos
  | smr | dmr =>
    have hvote : checkSDC c s p sched = sendPipe c s p 0 := by
      simp only [checkSDC, htype]
      exact if_neg hzero
    exact .sent 0 hpos hvote fun h => by simp [htype] at h
  | tmr =>
    have hvote : checkSDC c s p sched = ((List.range c.repCount).findSome? fun rIndex =>
        checkTmr c s p (ready c s p) rIndex sched).getD s := by
      simp only [checkSDC, htype]
      exact if_neg hzero
    rw [hvote]
    rcases hfind : (List.range c.repCount).findSome? fun rIndex =>
        checkTmr c s p (ready c s p) rIndex sched with _ | t
    · exact tied_of_checkTmr hs htype sched fun r hr =>
        List.findSome?_eq_none_iff.mp hfind r (List.mem_range.mpr hr)
    · obtain ⟨u, hu, hround⟩ := List.exists_of_findSome?_eq_some hfind
      exact vote_of_checkTmr hs htype sched (List.mem_range.mp hu) hround

/-! ### The timer -/

/-- The effect of a cold start on the out pipes: everything is empty. -/
structure ColdStarted (c : Config) (s t : State) : Prop where
  plumbed : Plumbed c t
  count : ∀ r < c.repCount, ∀ p < c.pipeCount, (t.vot r p).buffCount = 0
  index : ∀ r < c.repCount, ∀ p < c.pipeCount, (t.vot r p).buffIndex = 0
  extOut : t.extOut = s.extOut
  queue : ∀ r < c.repCount, ∀ p < c.pipeCount, c.IsOut p → t.queue r p = []
  procs : ∀ r < c.repCount, t.procs r = ⟨false, fun _ => []⟩

/-- Resending the last data. -/
theorem quiet_resend (s : State) (sched : ℕ → Bool) :
    Quiet c s (loop (fun p s => if (c.extPipes p).fdIn ≠ 0 then processData c s p sched else s)
      c.pipeCount s) := by
  refine loop_induction (fun _ t => Quiet c s t) (.refl s) fun p _ t ht => ?_
  split
  · rename_i hin
    exact ht.trans (quiet_processData hin sched)
  · exact ht

/-- The outcomes of `voterRestartHandler`. -/
inductive Handled (c : Config) (s t : State) : Prop
  /-- The only replica is started again. -/
  | cold (htype : c.repType = .smr) (h : ColdStarted c s t)
  /-- The replica behind on the out pipe of the running timer is replaced. -/
  | behind (u v : ℕ) (sched : ℕ → ℕ → Bool) (hu : u < c.repCount) (huv : u ≠ v)
      (htype : c.repType ≠ .smr)
      (hv : v = behindRep s.replicas c.repCount (c.timerStopIndex s.currentTimer))
      (hparent : u = (v + (c.repCount - 1)) % c.repCount)
      (ht : t = restartPrep c s v u sched)

theorem coldStarted_startReplicas (h : Plumbed c s) (htype : c.repType = .smr) {s₀ : State}
    (hs₀ : s₀ = { s with fds := cleanupReplica (s.replicas 0) s.fds }) :
    ColdStarted c s (startReplicas c s₀) := by
  have hcount : c.repCount = 1 := by rw [Config.repCount, htype]; rfl
  have h0 : 0 < c.repCount := by omega
  subst hs₀
  have hstarted := restarted_startReplicas (c := c)
    (s := { s with fds := cleanupReplica (s.replicas 0) s.fds })
    (mem_closePipes.mpr ⟨h.zero_open, fun hheld => hheld.1 rfl⟩)
    (fun p hp => mem_closePipes.mpr ⟨h.ext_open p hp, h.ext_free 0 h0 p hp⟩)
    fun r hr => h.ext_free r hr
  refine ⟨hstarted.plumbed, fun r hr p hp => ?_, fun r hr p hp => ?_, hstarted.extOut,
    fun r hr p hp _ => ?_, fun r hr => ?_⟩
  · rw [hstarted.count r hr, if_pos]
    exact (h.pipeCount hr).symm ▸ hp
  · rw [hstarted.index r hr, if_pos]
    exact (h.pipeCount hr).symm ▸ hp
  · rw [hstarted.queue, if_pos ⟨hr, hp⟩]
  · rw [hstarted.procs, if_pos hr]

theorem voterRestartHandler_cases (h : Plumbed c s) (hpos : 0 < c.repCount)
    (sched : ℕ → ℕ → Bool) : Handled c s (voterRestartHandler c s sched) := by
  have hlt := behindRep_lt s.replicas (c.timerStopIndex s.currentTimer) hpos
  cases htype : c.repType with
  | none => simp [Config.repCount, htype, reptypeToCount] at hpos
  | repTypeError => simp [Config.repCount, htype, reptypeToCount] at hpos
  | smr =>
    have hcold := coldStarted_startReplicas h htype rfl
    have hquiet := quiet_resend (c := c) (startReplicas c
      { s with fds := cleanupReplica (s.replicas 0) s.fds }) (sched 0)
    refine .cold htype ?_
    simp only [voterRestartHandler, htype]
    refine ⟨hcold.plumbed.congr hquiet.fds hquiet.plumbing, fun r hr p hp => ?_,
      fun r hr p hp => ?_, hquiet.extOut.trans hcold.extOut, fun r hr p hp hout => ?_,
      fun r hr => ?_⟩
    · rw [hquiet.vot]
      exact hcold.count r hr p hp
    · rw [hquiet.vot]
      exact hcold.index r hr p hp
    · rw [hquiet.queue p hout]
      exact hcold.queue r hr p hp hout
    · rw [hquiet.procs]
      exact hcold.procs r hr
  | dmr =>
    have hcount : c.repCount = 2 := by rw [Config.repCount, htype]; rfl
    refine .behind _ _ sched (Nat.mod_lt _ hpos) ?_ (by simp [htype]) rfl rfl ?_
    · rw [hcount] at hlt ⊢
      omega
    · simp only [voterRestartHandler, htype]
  | tmr =>
    have hcount : c.repCount = 3 := by rw [Config.repCount, htype]; rfl
    refine .behind _ _ sched (Nat.mod_lt _ hpos) ?_ (by simp [htype]) rfl rfl ?_
    · rw [hcount] at hlt ⊢
      omega
    · simp only [voterRestartHandler, htype]

/-! ### Well-formed states -/

theorem mem_rounds {p r : ℕ} : (p, r) ∈ rounds c ↔ p < c.pipeCount ∧ r < c.repCount := by
  simp [rounds]

/-- The voter works on pipes that exist. -/
def Point.InRange (c : Config) : Point → Prop
  | .scan _ todo => ∀ x ∈ todo, x ∈ rounds c
  | .blocked p r _ todo => (p, r) ∈ rounds c ∧ c.IsOut p ∧ ∀ x ∈ todo, x ∈ rounds c
  | .vote p _ todo => p < c.pipeCount ∧ c.IsOut p ∧ ∀ x ∈ todo, x ∈ rounds c
  | _ => True

/-- What holds in every reachable state. -/
structure WellFormed (c : Config) (s : State) : Prop where
  pos : 0 < c.repCount
  plumbed : Plumbed c s
  synced : ∀ p < c.pipeCount, c.IsOut p → Synced c s p
  inRange : s.point.InRange c

/-- The pipe that was read last and not yet voted on. -/
def State.voting (s : State) : Option ℕ :=
  match s.point with
  | .vote p _ _ => some p
  | _ => none

/-- The replica and pipe an action reads from. -/
def reads (s : State) (a : Act) : Option (ℕ × ℕ) :=
  match a, s.point with
  | .scan, .scan ready ((p, r) :: _) =>
    if IsSet s ready p r ∧ s.queue r p ≠ [] then some (r, p) else none
  | .wake, .blocked p r _ _ => if s.queue r p ≠ [] then some (r, p) else none
  | _, _ => none

theorem reads_eq_some {a : Act} {x : ℕ × ℕ} (h : reads s a = some x) : a = .scan ∨ a = .wake := by
  cases a <;> simp_all [reads]

/-- What a step from `s` to `t` can be. -/
inductive StepCase (c : Config) (s : State) : Act → State → Prop
  /-- The output of the replicas is left alone. -/
  | quiet {a : Act} {t : State} (h : Quiet c s t) (hvoting : t.voting = s.voting)
      (hreads : reads s a = none) (hrange : t.point.InRange c) : StepCase c s a t
  /-- A replica writes. -/
  | write {r p : ℕ} {bytes : List UInt8} (hr : r < c.repCount) (hp : p < c.pipeCount)
      (hout : c.IsOut p) : StepCase c s (.replicaWrites r p bytes)
        { s.setQueue r p (s.queue r p ++ bytes) with
          procs := Function.update s.procs r { s.procs r with
            written := Function.update (s.procs r).written p ((s.procs r).written p ++ bytes) } }
  /-- The voter reads. -/
  | read {a : Act} {t : State} {r p : ℕ} (hreads : reads s a = some (r, p))
      (hr : r < c.repCount) (hp : p < c.pipeCount) (hout : c.IsOut p)
      (hne : s.queue r p ≠ []) (h : ReadFrom s t r p) (hvoting : s.voting = none)
      (hstored : Fits s r p → t.voting = some p) (hfull : ¬ Fits s r p → t.voting = none)
      (hrange : t.point.InRange c) : StepCase c s a t
  /-- The voter votes on what it has read. -/
  | vote {sched : ℕ → ℕ → Bool} {s' t' t : State} {p : ℕ} (hvoting : s.voting = some p)
      (hp : p < c.pipeCount) (hout : c.IsOut p) (hs : s' = balance c s (sched 0))
      (h : Vote c s' t' p) (hvoting' : t.voting = none) (hrange : t.point.InRange c)
      (ht : t = { t' with point := t.point }) : StepCase c s (.vote sched) t
  /-- The timer has run out. -/
  | expired {sched : ℕ → ℕ → Bool} {t' t : State} (hpoint : s.point = .update)
      (hexpired : Expired c s) (h : Handled c s t') (hvoting : t.voting = none)
      (hrange : t.point.InRange c) (ht : t = { t' with point := t.point }) :
      StepCase c s (.update sched) t

theorem quiet_readExternal {p : ℕ} (hp : ¬ c.IsOut p) (sched : ℕ → ℕ → Bool) :
    Quiet c s (readExternal c s p sched) := by
  simp only [readExternal]
  have hread : ∀ extIn extData, Quiet c s { s with extIn := extIn, extData := extData } :=
    fun _ _ => .of_eq rfl rfl rfl rfl rfl rfl
  split
  · exact hread _ _
  · exact (hread _ _).trans (quiet_processData hp (sched 0))

theorem not_isOut_of_externalPipe {ready : List ℕ} {p : ℕ} (h : externalPipe c ready = some p) :
    ¬ c.IsOut p := by
  have hfound := List.find?_some h
  simp only [ne_eq, decide_eq_true_eq] at hfound
  exact hfound.1

/-- A `read` that returns, possibly behind a start of the timer. -/
theorem stepCase_readReplica {a : Act} {s' : State} {r p : ℕ} {ready : List ℕ}
    {todo : List (ℕ × ℕ)} (hs' : ∃ started current watchdog, s' =
      { s with timerStarted := started, currentTimer := current, watchdog := watchdog })
    (hreads : reads s a = some (r, p)) (hr : r < c.repCount) (hp : p < c.pipeCount)
    (hout : c.IsOut p) (hne : s.queue r p ≠ []) (hvoting : s.voting = none)
    (htodo : ∀ x ∈ todo, x ∈ rounds c) : StepCase c s a (readReplica s' p r ready todo) := by
  obtain ⟨started, current, watchdog, rfl⟩ := hs'
  set s' : State :=
    { s with timerStarted := started, currentTimer := current, watchdog := watchdog }
  have hne' : s'.queue r p ≠ [] := hne
  obtain ⟨hread, hpoint⟩ := readFrom_readReplica hne' ready todo
  have hread' : ReadFrom s (readReplica s' p r ready todo) r p :=
    ⟨hread.vot, hread.plumbing, hread.fds, hread.extOut, hread.queue, hread.procs, hread.log,
      hread.log_of_full⟩
  have hfits : Fits s' r p ↔ Fits s r p := Iff.rfl
  refine .read hreads hr hp hout hne hread' hvoting (fun h => ?_) (fun h => ?_) ?_
  · simp only [State.voting, hpoint, if_pos (hfits.mpr h)]
  · simp only [State.voting, hpoint, if_neg (mt hfits.mp h)]
  · rw [hpoint]
    split
    · exact ⟨hp, hout, htodo⟩
    · exact htodo

/-- **What a step can do.** -/
theorem step_cases (hs : WellFormed c s) {a : Act} (h : t ∈ step c s a) : StepCase c s a t := by
  have hpos := hs.pos
  have hrange := hs.inRange
  cases a with
  | update sched =>
    cases hpoint : s.point <;> simp only [step, hpoint, Option.mem_def, Option.some.injEq,
      reduceCtorEq] at h
    subst h
    have hvoting : s.voting = none := by simp only [State.voting, hpoint]
    by_cases hexpired : Expired c s
    · have hcheck : checkTimer c s sched = voterRestartHandler c s sched := if_pos hexpired
      rw [hcheck]
      exact .expired hpoint hexpired (voterRestartHandler_cases hs.plumbed hpos sched) rfl
        trivial rfl
    · have hcheck : checkTimer c s sched = s := if_neg hexpired
      rw [hcheck]
      exact .quiet ((Quiet.refl s).setPoint _) hvoting.symm rfl trivial
  | select =>
    cases hpoint : s.point <;> simp only [step, hpoint, Option.mem_def, reduceCtorEq] at h
    have hvoting : s.voting = none := by simp only [State.voting, hpoint]
    split at h
    · obtain rfl := Option.some.inj h
      exact .quiet ((Quiet.refl s).setPoint _) hvoting.symm rfl trivial
    · obtain rfl := Option.some.inj h
      exact .quiet ⟨fun _ _ => rfl, rfl, rfl, rfl, fun _ _ _ => rfl, rfl, [.selected], rfl,
        by simp⟩ hvoting.symm rfl trivial
  | external sched =>
    cases hpoint : s.point <;> simp only [step, hpoint, Option.mem_def, Option.some.injEq,
      reduceCtorEq] at h
    rename_i ready
    subst h
    have hvoting : s.voting = none := by simp only [State.voting, hpoint]
    refine .quiet (Quiet.setPoint ?_ _) hvoting.symm rfl fun x hx => hx
    cases hfind : externalPipe c ready with
    | none => exact .refl s
    | some p => exact quiet_readExternal (not_isOut_of_externalPipe hfind) sched
  | scan =>
    cases hpoint : s.point <;> simp only [step, hpoint, Option.mem_def, reduceCtorEq] at h
    rename_i ready todo
    have hvoting : s.voting = none := by simp only [State.voting, hpoint]
    rw [hpoint] at hrange
    rcases todo with _ | ⟨⟨p, r⟩, todo⟩
    · obtain rfl := Option.some.inj h
      exact .quiet ((Quiet.refl s).setPoint _) hvoting.symm (by simp [reads, hpoint]) trivial
    obtain ⟨hp, hr⟩ := mem_rounds.mp (hrange _ List.mem_cons_self)
    have htodo : ∀ x ∈ todo, x ∈ rounds c := fun x hx => hrange x (List.mem_cons_of_mem _ hx)
    dsimp only at h
    split at h
    · rename_i hset
      have hout := (hs.plumbed.fdIn_ne_zero_iff hr hp).mp hset.1
      have htimer := startTimer_eq c.timerStopIndex s p
      have hqueue : (startTimer c.timerStopIndex s p).queue = s.queue := by
        obtain ⟨_, _, _, heq⟩ := htimer
        rw [heq]
      split at h
      · rename_i hempty
        rw [hqueue] at hempty
        obtain rfl := Option.some.inj h
        exact .quiet ((quiet_startTimer _ s p).setPoint _) hvoting.symm
          (by simp [reads, hpoint, hempty]) ⟨mem_rounds.mpr ⟨hp, hr⟩, hout, htodo⟩
      · rename_i hne
        rw [hqueue] at hne
        obtain rfl := Option.some.inj h
        exact stepCase_readReplica htimer (by simp [reads, hpoint, hset, hne]) hr hp hout hne
          hvoting htodo
    · rename_i hset
      obtain rfl := Option.some.inj h
      exact .quiet ((Quiet.refl s).setPoint _) hvoting.symm (by simp [reads, hpoint, hset]) htodo
  | wake =>
    cases hpoint : s.point <;> simp only [step, hpoint, Option.mem_def, reduceCtorEq] at h
    rename_i p r ready todo
    have hvoting : s.voting = none := by simp only [State.voting, hpoint]
    rw [hpoint] at hrange
    obtain ⟨hround, hout, htodo⟩ := hrange
    obtain ⟨hp, hr⟩ := mem_rounds.mp hround
    split at h
    · simp at h
    · rename_i hne
      obtain rfl := Option.some.inj h
      exact stepCase_readReplica ⟨s.timerStarted, s.currentTimer, s.watchdog, rfl⟩
        (by simp [reads, hpoint, hne]) hr hp hout hne hvoting htodo
  | vote sched =>
    cases hpoint : s.point <;> simp only [step, hpoint, Option.mem_def, Option.some.injEq,
      reduceCtorEq] at h
    rename_i p ready todo
    subst h
    rw [hpoint] at hrange
    obtain ⟨hp, hout, htodo⟩ := hrange
    refine .vote (by simp only [State.voting, hpoint]) hp hout rfl
      (checkSDC_cases ((hs.synced p hp hout).congr fun r _ => vot_balance c s _ r p) hpos sched)
      rfl htodo rfl
  | replicaWrites r p bytes =>
    simp only [step, Option.mem_def, Option.ite_none_right_eq_some, Option.some.injEq] at h
    obtain ⟨⟨hr, hp, hout, -⟩, rfl⟩ := h
    exact .write hr hp hout
  | replicaReads r p n =>
    simp only [step, Option.mem_def, Option.ite_none_right_eq_some, Option.some.injEq] at h
    obtain ⟨⟨hr, hp, hin⟩, rfl⟩ := h
    refine .quiet ⟨fun _ _ => rfl, rfl, rfl, rfl, fun q hq r' => ?_, rfl, [], rfl, by simp⟩ rfl
      rfl hrange
    have hqp : q ≠ p := fun h => hin (h ▸ hq)
    simp [hqp]
  | externalWrites p bytes =>
    simp only [step, Option.mem_def, Option.ite_none_right_eq_some, Option.some.injEq] at h
    obtain ⟨-, rfl⟩ := h
    exact .quiet (.of_eq rfl rfl rfl rfl rfl rfl) rfl rfl hrange
  | tick d =>
    simp only [step, Option.mem_def, Option.some.injEq] at h
    subst h
    exact .quiet (.of_eq rfl rfl rfl rfl rfl rfl) rfl rfl hrange

/-! ### The invariant -/

theorem Quiet.plumbed (h : Quiet c s t) (hs : Plumbed c s) : Plumbed c t :=
  hs.congr h.fds h.plumbing

theorem Quiet.synced (h : Quiet c s t) {p : ℕ} (hs : Synced c s p) : Synced c t p :=
  hs.congr fun r _ => h.vot r p

/-- `sendPipe` keeps every lane in step. -/
theorem synced_sendPipe {p u q : ℕ} (hs : Synced c s p) (hu : u < c.repCount)
    (hq : Synced c s q) : Synced c (sendPipe c s p u) q := by
  rcases eq_or_ne q p with rfl | hqp
  · exact (forwarded_sendPipe hs hu).synced hs
  · exact hq.congr fun r _ => (sameLane_sendPipe hs hu hqp).vot r

theorem Reforked.synced {u v p : ℕ} (h : Reforked c s t u v) (hs : Synced c s p)
    (hp : p < c.pipeCount) (hout : c.IsOut p) (hu : u < c.repCount) (huv : u ≠ v) :
    Synced c t p :=
  (h.replaced p hp hout).synced (hs.but v) hu huv

theorem wellFormed_step (hs : WellFormed c s) {a : Act} (h : t ∈ step c s a) :
    WellFormed c t := by
  cases step_cases hs h with
  | quiet hquiet _ _ hrange =>
    exact ⟨hs.pos, hquiet.plumbed hs.plumbed, fun p hp hout => hquiet.synced (hs.synced p hp hout),
      hrange⟩
  | write _ _ _ =>
    exact ⟨hs.pos, hs.plumbed, fun p hp hout => (hs.synced p hp hout).congr fun _ _ => rfl,
      hs.inRange⟩
  | read _ _ _ _ _ hread _ _ _ hrange =>
    exact ⟨hs.pos, hs.plumbed.congr hread.fds hread.plumbing,
      fun p hp hout => hread.synced (hs.synced p hp hout), hrange⟩
  | @vote sched s' t' _ p _ hp hout hs' hvote _ hrange ht =>
    have hquiet : Quiet c s s' := hs' ▸ quiet_balance s (sched 0)
    have hsynced : ∀ q < c.pipeCount, c.IsOut q → Synced c s' q := fun q hq hqout =>
      hquiet.synced (hs.synced q hq hqout)
    have hplumbed : Plumbed c s' := hquiet.plumbed hs.plumbed
    suffices hkeep : Plumbed c t' ∧ ∀ q < c.pipeCount, c.IsOut q → Synced c t' q by
      rw [ht]
      exact ⟨hs.pos, hkeep.1, fun q hq hqout => (hkeep.2 q hq hqout).congr fun _ _ => rfl, hrange⟩
    cases hvote with
    | sent u hu ht' =>
      have hsame := samePipes_sendPipe (hsynced p hp hout) hu
      rw [ht']
      exact ⟨hplumbed.congr hsame.fds hsame.plumbing,
        fun q hq hqout => synced_sendPipe (hsynced p hp hout) hu (hsynced q hq hqout)⟩
    | outvoted u v sched' _ hu hv huv ht' _ _ =>
      have hreforked := reforked_restartPrep hplumbed
        (fun q hq hqout => (hsynced q hq hqout).but v) hu hv huv sched'
      rw [← ht'] at hreforked
      exact ⟨hreforked.plumbed,
        fun q hq hqout => hreforked.synced (hsynced q hq hqout) hq hqout hu huv⟩
    | tied _ ht' _ =>
      rw [ht']
      exact ⟨hplumbed, hsynced⟩
  | @expired sched t' _ _ _ hhandled _ hrange ht =>
    suffices hkeep : Plumbed c t' ∧ ∀ q < c.pipeCount, c.IsOut q → Synced c t' q by
      rw [ht]
      exact ⟨hs.pos, hkeep.1, fun q hq hqout => (hkeep.2 q hq hqout).congr fun _ _ => rfl, hrange⟩
    cases hhandled with
    | cold _ hcold =>
      refine ⟨hcold.plumbed, fun q hq _ => ⟨fun r hr => ⟨?_, ?_⟩, fun r hr r' hr' => ?_⟩⟩
      · rw [hcold.index r hr q hq]
        exact maxVotePipeBuff_pos
      · rw [hcold.count r hr q hq]
        exact maxVotePipeBuff_pos
      · rw [hcold.index r hr q hq, hcold.index r' hr' q hq]
    | behind u v sched' hu huv _ hv _ ht' =>
      have hlt : v < c.repCount := by
        rw [hv]
        exact behindRep_lt _ _ hs.pos
      have hreforked := reforked_restartPrep hs.plumbed
        (fun q hq hqout => (hs.synced q hq hqout).but v) hu hlt huv sched'
      rw [← ht'] at hreforked
      exact ⟨hreforked.plumbed,
        fun q hq hqout => hreforked.synced (hs.synced q hq hqout) hq hqout hu huv⟩

/-- What `initVoterD` leaves behind: fresh replicas that are connected as they should be,
empty vote pipes in step, and the timer off. -/
structure Initial (c : Config) (s : State) : Prop where
  pos : 0 < c.repCount
  point : s.point = .update
  timer : s.timerStarted = false
  plumbed : Plumbed c s
  index : ∀ p < c.pipeCount, c.IsOut p → Synced c s p
  empty : ∀ r < c.repCount, ∀ p < c.pipeCount, c.IsOut p → (s.vot r p).buffCount = 0
  queue : ∀ r p, s.queue r p = []
  extOut : ∀ p, s.extOut p = []
  written : ∀ r p, (s.procs r).written p = []
  log : ∀ e ∈ s.log, ∃ r, e = .started r s.now

theorem Initial.wellFormed (h : Initial c s) : WellFormed c s where
  pos := h.pos
  plumbed := h.plumbed
  synced := h.index
  inRange := by
    rw [h.point]
    trivial

/-- Every reachable state is well formed. -/
theorem wellFormed_of_reaches {ok : State → Act → Prop} (hs : Initial c s)
    (h : Reaches (step c) ok s t) : WellFormed c t :=
  h.invariant hs.wellFormed fun _ _ _ hwf _ hu => wellFormed_step hwf hu

end S3RES.VoterD
