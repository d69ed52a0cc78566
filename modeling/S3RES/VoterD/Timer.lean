import S3RES.VoterD.Startup

/-!
# What a step does to the timer

`timer_cases` lists the steps of the machine by what they do to the timer and to the log:
input and output can start it, forwarding and restarts stop it, and the cold start of SMR
leaves it running. The arguments about the watchdog go through it.
-/

namespace S3RES.VoterD

open Loop StepSystem

variable {c : Config} {s t : State} {p : ℕ}

/-- `timer_started`, `current_timer` and `watchdog`. -/
def State.timer (s : State) : Bool × ℕ × ℕ := (s.timerStarted, s.currentTimer, s.watchdog)

/-- Events that have nothing to do with the timer. -/
def Event.Silent : Event → Prop
  | .taken _ _ _ => True
  | .selected => True
  | _ => False

/-- `t` comes after `s` with silent events only. -/
def SilentlyAfter (s t : State) : Prop := ∃ l, t.log = l ++ s.log ∧ ∀ e ∈ l, e.Silent

theorem SilentlyAfter.of_eq (h : t.log = s.log) : SilentlyAfter s t := ⟨[], h, by simp⟩

/-- Replica `v` differs from the others in what all have on pipe `p`, and these agree. -/
def Outvoted (c : Config) (s : State) (p v : ℕ) : Prop :=
  c.repType = .tmr ∧ v < c.repCount ∧ ∀ u < c.repCount, u ≠ v →
    (s.vot v p).content.take (ready c s p) ≠ (s.vot u p).content.take (ready c s p) ∧
    ∀ r < c.repCount, r ≠ v →
      (s.vot r p).content.take (ready c s p) = (s.vot u p).content.take (ready c s p)

/-- Something is forwarded on pipe `p`: every replica has output there, and in TMR they
agree on it. -/
def Forwards (c : Config) (s : State) (p : ℕ) : Prop :=
  ready c s p ≠ 0 ∧ (c.repType = .tmr → ∀ r < c.repCount, ∀ u < c.repCount,
    (s.vot r p).content.take (ready c s p) = (s.vot u p).content.take (ready c s p))

/-- The timer and the log after slot `v` was filled from slot `u`. -/
structure Reset (c : Config) (s t : State) (u v : ℕ) : Prop where
  timerStarted : t.timerStarted = false
  now : t.now = s.now
  log : ∃ forwards, t.log = forwards ++ .started v s.now :: s.log ∧ ∀ e, e ∈ forwards ↔
    ∃ p < c.pipeCount, c.IsOut p ∧ 0 < forkReady c s u v p ∧ e = .forwarded p

/-- What a step from `s` to `t` can do to the timer. -/
inductive TimerCase (c : Config) (s : State) : Act → State → Prop
  /-- Nothing. -/
  | idle {a : Act} {t : State} (htimer : t.timer = s.timer) (hnow : s.now ≤ t.now)
      (hlog : SilentlyAfter s t) : TimerCase c s a t
  /-- Input of pipe `p` is delivered. -/
  | input {sched : ℕ → ℕ → Bool} {ready : List ℕ} {p : ℕ} {t : State}
      (hpoint : s.point = .external ready) (hfind : externalPipe c ready = some p)
      (htimer : t.timer = (startTimer c.timerStartIndex s p).timer) (hnow : t.now = s.now)
      (hlog : t.log = .delivered p s.now :: s.log) : TimerCase c s (.external sched) t
  /-- Output is read on pipe `p`. -/
  | output {ready : List ℕ} {p r : ℕ} {todo : List (ℕ × ℕ)} {t : State}
      (hpoint : s.point = .scan ready ((p, r) :: todo)) (hp : p < c.pipeCount)
      (hout : c.IsOut p) (htimer : t.timer = (startTimer c.timerStopIndex s p).timer)
      (hnow : t.now = s.now) (hlog : SilentlyAfter s t) : TimerCase c s .scan t
  /-- Output is forwarded on pipe `p`. -/
  | sent {sched : ℕ → ℕ → Bool} {p : ℕ} {t : State} (hvoting : s.voting = some p)
      (hp : p < c.pipeCount) (hout : c.IsOut p) (hforwards : Forwards c s p)
      (htimer : t.timer = (stopTimer c s p).timer) (hnow : t.now = s.now)
      (hlog : t.log = .forwarded p :: s.log) : TimerCase c s (.vote sched) t
  /-- A replica is outvoted and replaced. -/
  | outvoted {sched : ℕ → ℕ → Bool} {p u v : ℕ} {t : State} (hvoting : s.voting = some p)
      (houtvoted : Outvoted c s p v) (hu : u < c.repCount) (hv : v < c.repCount) (huv : u ≠ v)
      (hreset : Reset c s t u v) : TimerCase c s (.vote sched) t
  /-- The timer has run out and the replica behind is replaced. -/
  | behind {sched : ℕ → ℕ → Bool} {u v : ℕ} {t : State} (hpoint : s.point = .update)
      (hexpired : Expired c s) (htype : c.repType ≠ .smr) (hu : u < c.repCount) (huv : u ≠ v)
      (hv : v = behindRep s.replicas c.repCount (c.timerStopIndex s.currentTimer))
      (hreset : Reset c s t u v) : TimerCase c s (.update sched) t
  /-- The timer has run out and the only replica is started again. -/
  | cold {sched : ℕ → ℕ → Bool} {t : State} (hpoint : s.point = .update)
      (hexpired : Expired c s) (htype : c.repType = .smr) (htimer : t.timer = s.timer)
      (hnow : t.now = s.now) (hlog : ∃ l, t.log = l ++ .started 0 s.now :: s.log ∧
        ∀ e ∈ l, ∃ p, e = .delivered p s.now) : TimerCase c s (.update sched) t

/-! ### The functions -/

@[simp] theorem timer_balance (c : Config) (s : State) (sched : ℕ → Bool) :
    (balance c s sched).timer = s.timer := rfl

theorem timer_startTimer_congr (timerIndex : ℕ → ℕ) (h : t.timer = s.timer) (hnow : t.now = s.now)
    (p : ℕ) : (startTimer timerIndex t p).timer = (startTimer timerIndex s p).timer := by
  simp only [State.timer, Prod.mk.injEq] at h
  obtain ⟨hstarted, hcurrent, hwatchdog⟩ := h
  simp only [startTimer, hstarted]
  split_ifs
  · simp only [State.timer, hstarted, hcurrent, hwatchdog]
  · simp only [State.timer, hnow]
  · simp only [State.timer, hnow]
  · simp only [State.timer, hstarted, hcurrent, hwatchdog]

/-- A running timer is left alone. -/
theorem startTimer_of_started (timerIndex : ℕ → ℕ) (h : s.timerStarted = true) (p : ℕ) :
    startTimer timerIndex s p = s := by
  simp [startTimer, h]

/-- The timer runs after a start on one of the pipes of the array. -/
theorem timerStarted_startTimer (timerIndex : ℕ → ℕ) (s : State) (p : ℕ) :
    (startTimer timerIndex s p).timerStarted =
      (s.timerStarted || decide (p = timerIndex 0 ∨ p = timerIndex 1)) := by
  simp only [startTimer]
  split_ifs <;> simp_all

theorem timerStarted_stopTimer (c : Config) (s : State) (p : ℕ) :
    (stopTimer c s p).timerStarted =
      (s.timerStarted && !decide (p = c.timerStopIndex 0 ∨ p = c.timerStopIndex 1)) := by
  simp only [stopTimer]
  split_ifs <;> simp_all

/-- The effect of `processData` on the timer and the log. -/
theorem timer_processData (c : Config) (s : State) (p : ℕ) (sched : ℕ → Bool) :
    (processData c s p sched).timer = (startTimer c.timerStartIndex s p).timer ∧
      (processData c s p sched).now = s.now ∧
      (processData c s p sched).log =
        if s.extData p = [] then s.log else .delivered p s.now :: s.log := by
  obtain ⟨started, current, watchdog, heq⟩ := startTimer_eq c.timerStartIndex s p
  simp only [processData, loop_writeBuffer, heq]
  change (if s.extData p = [] then _ else _ : State).timer = _ ∧
    (if s.extData p = [] then _ else _ : State).now = _ ∧
    (if s.extData p = [] then _ else _ : State).log = _
  split <;> exact ⟨rfl, rfl, rfl⟩

/-- The effect of `sendPipe` on the timer and the log. -/
theorem timer_sendPipe {u : ℕ} (hs : Synced c s p) (hu : u < c.repCount) :
    (sendPipe c s p u).timer = (if ready c s p = 0 then s else stopTimer c s p).timer ∧
      (sendPipe c s p u).now = s.now := by
  refine ⟨?_, (samePipes_sendPipe hs hu).now⟩
  rw [sendPipe_eq hu (hs.valid u hu)]
  split
  · rfl
  · simp only [stopTimer, sent, State.timer]
    split <;> rfl

/-- A running timer keeps running while the last data is resent. -/
theorem timer_resend (hstarted : s.timerStarted = true) (sched : ℕ → Bool) (n : ℕ)
    (ht : loop (fun p s => if (c.extPipes p).fdIn ≠ 0 then processData c s p sched else s) n s =
      t) :
    t.timer = s.timer ∧ t.now = s.now ∧
      ∃ l, t.log = l ++ s.log ∧ ∀ e ∈ l, ∃ p, e = .delivered p s.now := by
  subst ht
  refine loop_induction (fun _ (t : State) => t.timer = s.timer ∧ t.now = s.now ∧
    ∃ l, t.log = l ++ s.log ∧ ∀ e ∈ l, ∃ p, e = .delivered p s.now)
    ⟨rfl, rfl, [], rfl, by simp⟩ fun p _ t ht => ?_
  obtain ⟨htimer, hnow, l, hlog, hmem⟩ := ht
  split
  · have hstarted' : t.timerStarted = true := (congrArg Prod.fst htimer).trans hstarted
    obtain ⟨htimer', hnow', hlog'⟩ := timer_processData c t p sched
    rw [startTimer_of_started _ hstarted'] at htimer'
    rw [hnow, hlog] at hlog'
    split at hlog'
    · exact ⟨htimer'.trans htimer, hnow'.trans hnow, l, hlog', hmem⟩
    · refine ⟨htimer'.trans htimer, hnow'.trans hnow, .delivered p s.now :: l, hlog',
        fun e he => ?_⟩
      rcases List.mem_cons.mp he with rfl | he
      · exact ⟨p, rfl⟩
      · exact hmem e he
  · exact ⟨htimer, hnow, l, hlog, hmem⟩

/-- The cold start of SMR leaves the timer as it is. -/
theorem timer_voterRestartHandler_smr (h : Plumbed c s) (htype : c.repType = .smr)
    (hstarted : s.timerStarted = true) (sched : ℕ → ℕ → Bool) :
    (voterRestartHandler c s sched).timer = s.timer ∧
      (voterRestartHandler c s sched).now = s.now ∧
      ∃ l, (voterRestartHandler c s sched).log = l ++ .started 0 s.now :: s.log ∧
        ∀ e ∈ l, ∃ p, e = .delivered p s.now := by
  have hcount : c.repCount = 1 := by rw [Config.repCount, htype]; rfl
  have h0 : 0 < c.repCount := by omega
  set s₀ : State := { s with fds := cleanupReplica (s.replicas 0) s.fds } with hs₀
  have hrestarted := restarted_startReplicas (c := c) (s := s₀)
    (mem_closePipes.mpr ⟨h.zero_open, fun hheld => hheld.1 rfl⟩)
    (fun p hp => mem_closePipes.mpr ⟨h.ext_open p hp, h.ext_free 0 h0 p hp⟩)
    fun r hr => h.ext_free r hr
  have htimer : (startReplicas c s₀).timer = s.timer := by
    rw [State.timer, hrestarted.timerStarted, hrestarted.currentTimer, hrestarted.watchdog]
    rfl
  have hlog : (startReplicas c s₀).log = .started 0 s.now :: s.log := by
    rw [hrestarted.log, hcount]
    rfl
  have hhandler : voterRestartHandler c s sched = loop (fun p s =>
      if (c.extPipes p).fdIn ≠ 0 then processData c s p (sched 0) else s) c.pipeCount
        (startReplicas c s₀) := by
    simp only [voterRestartHandler, htype, hs₀]
  obtain ⟨htimer', hnow', l, hlog', hmem⟩ := timer_resend (c := c) (s := startReplicas c s₀)
    ((congrArg Prod.fst htimer).trans hstarted) (sched 0) c.pipeCount hhandler.symm
  refine ⟨htimer'.trans htimer, hnow'.trans hrestarted.now, l, hlog'.trans (by rw [hlog]),
    fun e he => ?_⟩
  obtain ⟨p, rfl⟩ := hmem e he
  exact ⟨p, by rw [hrestarted.now]⟩

theorem Reforked.reset {u v : ℕ} (h : Reforked c s t u v) : Reset c s t u v :=
  ⟨h.timerStarted, h.now, h.log⟩

/-- What is ready does not depend on priorities. -/
theorem ready_balance (c : Config) (s : State) (sched : ℕ → Bool) (p : ℕ) :
    ready c (balance c s sched) p = ready c s p :=
  ready_congr fun r _ => by rw [vot_balance]

theorem Reset.balance {u v : ℕ} {sched : ℕ → Bool} (huv : u ≠ v)
    (h : Reset c (balance c s sched) t u v) : Reset c s t u v := by
  obtain ⟨forwards, hlog, hmem⟩ := h.log
  refine ⟨h.timerStarted, h.now, forwards, hlog, fun e => (hmem e).trans ?_⟩
  have hready : ∀ p, forkReady c (VoterD.balance c s sched) u v p = forkReady c s u v p :=
    fun p => forkReady_congr (fun r _ => vot_balance c s sched r p) huv
  simp only [hready]

/-! ### The steps -/

theorem timer_vote (hwf : WellFormed c s) {sched : ℕ → ℕ → Bool} {ready' : List ℕ}
    {todo : List (ℕ × ℕ)} (hpoint : s.point = .vote p ready' todo) :
    TimerCase c s (.vote sched)
      { checkSDC c (balance c s (sched 0)) p sched with point := .scan ready' todo } := by
  have hvoting : s.voting = some p := by simp only [State.voting, hpoint]
  have hrange := hwf.inRange
  rw [hpoint] at hrange
  obtain ⟨hp, hout, -⟩ := hrange
  have hquiet : Quiet c s (balance c s (sched 0)) := quiet_balance s (sched 0)
  have hsynced : ∀ q < c.pipeCount, c.IsOut q → Synced c (balance c s (sched 0)) q :=
    fun q hq hqout => hquiet.synced (hwf.synced q hq hqout)
  have hready := ready_balance c s (sched 0) p
  cases checkSDC_cases (hsynced p hp hout) hwf.pos sched with
  | sent u hu ht hagree =>
    rw [ht]
    obtain ⟨htimer, hnow⟩ := timer_sendPipe (hsynced p hp hout) hu
    have hlog := log_sendPipe (hsynced p hp hout) hu
    rw [hready] at htimer hlog
    rw [hready] at hagree
    simp only [vot_balance] at hagree
    by_cases hzero : ready c s p = 0
    · rw [if_pos hzero] at htimer hlog
      exact .idle htimer hnow.ge (.of_eq hlog)
    · rw [if_neg hzero] at htimer hlog
      refine .sent hvoting hp hout ⟨hzero, fun htype r hr u' hu' => ?_⟩ (htimer.trans ?_) hnow hlog
      · exact (hagree htype r hr).trans (hagree htype u' hu').symm
      · simp only [stopTimer]
        split <;> rfl
  | outvoted u v sched' htype hu hv huv ht hagree hdiffer =>
    rw [ht]
    have hreset := (reforked_restartPrep (hquiet.plumbed hwf.plumbed)
      (fun q hq hqout => (hsynced q hq hqout).but v) hu hv huv sched').reset
    rw [hready] at hagree hdiffer
    simp only [vot_balance] at hagree hdiffer
    have hreset' : Reset c s _ u v :=
      hreset.balance huv
    refine .outvoted hvoting ⟨htype, hv, fun u' hu' huv' => ⟨?_, fun r hr hrv => ?_⟩⟩ hu hv huv
      ⟨hreset'.timerStarted, hreset'.now, hreset'.log⟩
    · rw [hagree u' hu' huv']
      exact hdiffer
    · rw [hagree r hr hrv, hagree u' hu' huv']
  | tied _ ht _ =>
    rw [ht]
    exact .idle rfl le_rfl (.of_eq rfl)

/-- A `read` does not touch the timer. -/
theorem timer_readReplica {r : ℕ} (hne : s.queue r p ≠ []) (ready' : List ℕ)
    (todo : List (ℕ × ℕ)) : (readReplica s p r ready' todo).timer = s.timer ∧
      (readReplica s p r ready' todo).now = s.now ∧
      SilentlyAfter s (readReplica s p r ready' todo) := by
  obtain ⟨hread, -⟩ := readFrom_readReplica hne ready' todo
  have hsame : (readReplica s p r ready' todo).timer = s.timer ∧
      (readReplica s p r ready' todo).now = s.now := by
    simp only [readReplica]
    split <;> exact ⟨rfl, rfl⟩
  refine ⟨hsame.1, hsame.2, ?_⟩
  by_cases hfits : Fits s r p
  · exact ⟨[.taken r p (chunk s r p)], hread.log hfits, by simp [Event.Silent]⟩
  · exact .of_eq (hread.log_of_full hfits)

/-- **What a step can do to the timer.** -/
theorem timer_cases (hwf : WellFormed c s) {a : Act} (ht : t ∈ step c s a) :
    TimerCase c s a t := by
  have hrange := hwf.inRange
  cases a with
  | update sched =>
    cases hpoint : s.point <;> simp only [step, hpoint, Option.mem_def, Option.some.injEq,
      reduceCtorEq] at ht
    subst ht
    by_cases hexpired : Expired c s
    · have hcheck : checkTimer c s sched = voterRestartHandler c s sched := if_pos hexpired
      rw [hcheck]
      by_cases htype : c.repType = .smr
      · obtain ⟨htimer, hnow, hlog⟩ :=
          timer_voterRestartHandler_smr hwf.plumbed htype hexpired.1 sched
        exact .cold hpoint hexpired htype htimer hnow hlog
      · cases voterRestartHandler_cases hwf.plumbed hwf.pos sched with
        | cold hsmr _ => exact absurd hsmr htype
        | behind u v sched' hu huv _ hv _ heq =>
          have hlt : v < c.repCount := by
            rw [hv]
            exact behindRep_lt _ _ hwf.pos
          have hreset := (reforked_restartPrep hwf.plumbed
            (fun q hq hqout => (hwf.synced q hq hqout).but v) hu hlt huv sched').reset
          rw [← heq] at hreset
          exact .behind hpoint hexpired htype hu huv hv
            ⟨hreset.timerStarted, hreset.now, hreset.log⟩
    · have hcheck : checkTimer c s sched = s := if_neg hexpired
      rw [hcheck]
      exact .idle rfl le_rfl (.of_eq rfl)
  | select =>
    cases hpoint : s.point <;> simp only [step, hpoint, Option.mem_def, reduceCtorEq] at ht
    split at ht
    · obtain rfl := Option.some.inj ht
      exact .idle rfl le_rfl (.of_eq rfl)
    · obtain rfl := Option.some.inj ht
      exact .idle rfl le_rfl ⟨[.selected], rfl, by simp [Event.Silent]⟩
  | external sched =>
    cases hpoint : s.point <;> simp only [step, hpoint, Option.mem_def, Option.some.injEq,
      reduceCtorEq] at ht
    rename_i ready'
    subst ht
    cases hfind : externalPipe c ready' with
    | none => exact .idle rfl le_rfl (.of_eq rfl)
    | some p =>
      simp only [readExternal]
      split
      · exact .idle rfl le_rfl (.of_eq rfl)
      · rename_i hchunk
        obtain ⟨htimer, hnow, hlog⟩ := timer_processData c { s with
          extIn := Function.update s.extIn p ((s.extIn p).drop maxVotePipeBuff)
          extData := Function.update s.extData p ((s.extIn p).take maxVotePipeBuff) } p (sched 0)
        simp only [Function.update_self] at hlog
        rw [if_neg hchunk] at hlog
        refine .input hpoint hfind (htimer.trans ?_) hnow hlog
        apply timer_startTimer_congr
        · rfl
        · rfl
  | scan =>
    cases hpoint : s.point <;> simp only [step, hpoint, Option.mem_def, reduceCtorEq] at ht
    rename_i ready' todo'
    rw [hpoint] at hrange
    rcases todo' with _ | ⟨⟨p, r⟩, todo'⟩
    · obtain rfl := Option.some.inj ht
      exact .idle rfl le_rfl (.of_eq rfl)
    obtain ⟨hp, hr⟩ := mem_rounds.mp (hrange _ List.mem_cons_self)
    have hstart : (startTimer c.timerStopIndex s p).log = s.log ∧
        (startTimer c.timerStopIndex s p).now = s.now := by
      obtain ⟨_, _, _, heq⟩ := startTimer_eq c.timerStopIndex s p
      rw [heq]
      exact ⟨rfl, rfl⟩
    dsimp only at ht
    split at ht
    · rename_i hset
      have hout := (hwf.plumbed.fdIn_ne_zero_iff hr hp).mp hset.1
      split at ht
      · obtain rfl := Option.some.inj ht
        exact .output hpoint hp hout rfl hstart.2 (.of_eq hstart.1)
      · rename_i hne
        obtain rfl := Option.some.inj ht
        obtain ⟨htimer, hnow, l, hlog, hmem⟩ := timer_readReplica hne ready' todo'
        exact .output hpoint hp hout htimer (hnow.trans hstart.2)
          ⟨l, by rw [hlog, hstart.1], hmem⟩
    · obtain rfl := Option.some.inj ht
      exact .idle rfl le_rfl (.of_eq rfl)
  | wake =>
    cases hpoint : s.point <;> simp only [step, hpoint, Option.mem_def, reduceCtorEq] at ht
    rename_i p r ready' todo'
    split at ht
    · simp at ht
    · rename_i hne
      obtain rfl := Option.some.inj ht
      obtain ⟨htimer, hnow, hlog⟩ := timer_readReplica hne ready' todo'
      exact .idle htimer hnow.ge hlog
  | vote sched =>
    cases hpoint : s.point <;> simp only [step, hpoint, Option.mem_def, Option.some.injEq,
      reduceCtorEq] at ht
    subst ht
    exact timer_vote hwf hpoint
  | replicaWrites | replicaReads | externalWrites =>
    simp only [step, Option.mem_def, Option.ite_none_right_eq_some, Option.some.injEq] at ht
    obtain ⟨-, rfl⟩ := ht
    exact .idle rfl le_rfl (.of_eq rfl)
  | tick d =>
    simp only [step, Option.mem_def, Option.some.injEq] at ht
    subst ht
    exact .idle rfl (Nat.le_add_right _ _) (.of_eq rfl)

end S3RES.VoterD
