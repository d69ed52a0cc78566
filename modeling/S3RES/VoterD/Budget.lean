import S3RES.VoterD.Timer

/-!
# The time a replica is given

When the timer has run out a replica is killed. `full_budget`: it then had the whole
timeout, counted from its start and from the input it is waited for, if the timer really ran
for that long and, in SMR, was set after the last start. The conversion of the remaining
time to a whole number drops what is left of the last microsecond; and the cold start of SMR
neither stops the timer nor sets it again.
-/

namespace S3RES.VoterD

open StepSystem

variable {c : Config} {s t : State} {p : ℕ}

/-- The replica that is killed when the timer has run out. -/
def killed (c : Config) (s : State) : ℕ :=
  match c.repType with
  | .smr => 0
  | _ => behindRep s.replicas c.repCount (c.timerStopIndex s.currentTimer)

/-- `voting_timeout` has passed since the replica to be killed was started and since the
timed input of the running timer was delivered. -/
def InTime (c : Config) (s : State) : Prop :=
  ∀ e ∈ s.log, e.starts (killed c s) ∨ e.delivers (c.timerStartIndex s.currentTimer) →
    ∀ t₀ ∈ e.time, (c.votingTimeout : ℚ) ≤ diffTime s.now t₀

/-- The timer has run for `voting_timeout`, and in SMR was set after the last start. -/
def Due (c : Config) (s : State) : Prop :=
  (c.votingTimeout : ℚ) ≤ diffTime s.now s.watchdog ∧
    (c.repType = .smr → ∀ e ∈ s.log, e.starts 0 → ∀ t₀ ∈ e.time, t₀ ≤ s.watchdog)

instance (c : Config) (s : State) : Decidable (InTime c s) :=
  inferInstanceAs (Decidable (∀ e ∈ s.log, _ ∨ _ → ∀ t₀ ∈ e.time, _ ≤ _))

instance (c : Config) (s : State) : Decidable (Due c s) :=
  inferInstanceAs (Decidable (_ ≤ _ ∧ (_ → ∀ e ∈ s.log, _ → ∀ t₀ ∈ e.time, _ ≤ _)))

/-! ### No input is read while the timer runs -/

/-- The descriptors a `select` is about to look at or has reported. -/
def Point.watched : Point → Option (List ℕ)
  | .waiting watch => some watch
  | .external ready => some ready
  | _ => none

/-- While the timer runs no external pipe is watched. -/
def Closed (c : Config) (s : State) : Prop :=
  s.timerStarted = true → ∀ fds, s.point.watched = some fds → externalPipe c fds = none

theorem externalPipe_eq_none {fds : List ℕ} : externalPipe c fds = none ↔
    ∀ p < c.pipeCount, (c.extPipes p).fdIn ≠ 0 → (c.extPipes p).fdIn ∉ fds := by
  simp [externalPipe]

theorem externalPipe_replicaWatch (h : Plumbed c s) : externalPipe c (replicaWatch c s) = none := by
  refine externalPipe_eq_none.mpr fun p hp _ hmem => ?_
  simp only [replicaWatch, List.mem_filter, List.mem_flatMap, List.mem_map, List.mem_range] at hmem
  obtain ⟨⟨q, hq, r, hr, heq⟩, hne⟩ := hmem
  have hne' : (s.vot r q).fdIn ≠ 0 := by rw [heq]; simpa using hne
  exact h.fdIn_ne_ext hr hq hp hne' heq

theorem closed_step {a : Act} (hwf : WellFormed c s) (h : Closed c s) (ht : t ∈ step c s a) :
    Closed c t := by
  have hwf' := wellFormed_step hwf ht
  intro hstarted fds hwatched
  cases a with
  | update sched =>
    cases hpoint : s.point <;> simp only [step, hpoint, Option.mem_def, Option.some.injEq,
      reduceCtorEq] at ht
    subst ht
    simp only [Point.watched, Option.some.injEq] at hwatched
    subst hwatched
    have hext : externalWatch c (checkTimer c s sched) = [] := by
      rw [externalWatch, if_neg]
      rintro ⟨-, hoff⟩
      simp [hoff] at hstarted
    rw [hext, List.nil_append]
    exact externalPipe_replicaWatch (hwf'.plumbed.congr rfl rfl)
  | select =>
    cases hpoint : s.point <;> simp only [step, hpoint, Option.mem_def, reduceCtorEq] at ht
    rename_i watch
    split at ht
    · obtain rfl := Option.some.inj ht
      simp [Point.watched] at hwatched
    · obtain rfl := Option.some.inj ht
      simp only [Point.watched, Option.some.injEq] at hwatched
      subst hwatched
      have hnone := externalPipe_eq_none.mp (h hstarted watch (by rw [hpoint]; rfl))
      exact externalPipe_eq_none.mpr fun p hp hne hmem =>
        hnone p hp hne (List.mem_of_mem_filter hmem)
  | external | vote =>
    cases hpoint : s.point <;> simp only [step, hpoint, Option.mem_def, Option.some.injEq,
      reduceCtorEq] at ht
    subst ht
    simp [Point.watched] at hwatched
  | scan =>
    cases hpoint : s.point <;> simp only [step, hpoint, Option.mem_def, reduceCtorEq] at ht
    rename_i ready' todo'
    rcases todo' with _ | ⟨⟨p, r⟩, todo'⟩
    · obtain rfl := Option.some.inj ht
      simp [Point.watched] at hwatched
    dsimp only at ht
    split at ht
    · split at ht
      · obtain rfl := Option.some.inj ht
        simp [Point.watched] at hwatched
      · rename_i hne
        obtain rfl := Option.some.inj ht
        rw [(readFrom_readReplica hne ready' todo').2] at hwatched
        split at hwatched <;> simp [Point.watched] at hwatched
    · obtain rfl := Option.some.inj ht
      simp [Point.watched] at hwatched
  | wake =>
    cases hpoint : s.point <;> simp only [step, hpoint, Option.mem_def, reduceCtorEq] at ht
    rename_i p r ready' todo'
    split at ht
    · simp at ht
    · rename_i hne
      obtain rfl := Option.some.inj ht
      rw [(readFrom_readReplica hne ready' todo').2] at hwatched
      split at hwatched <;> simp [Point.watched] at hwatched
  | replicaWrites | replicaReads | externalWrites =>
    simp only [step, Option.mem_def, Option.ite_none_right_eq_some, Option.some.injEq] at ht
    obtain ⟨-, rfl⟩ := ht
    exact h hstarted fds hwatched
  | tick d =>
    simp only [step, Option.mem_def, Option.some.injEq] at ht
    subst ht
    exact h hstarted fds hwatched

/-! ### What happened before the timer was set -/

/-- The invariant: nothing was started or delivered in the future, nor, while the timer
runs, after it was set, but for the cold starts of SMR and what they resend. -/
structure Chronicle (c : Config) (s : State) : Prop where
  past : ∀ e ∈ s.log, ∀ t₀ ∈ e.time, t₀ ≤ s.now
  watchdog : s.timerStarted = true → s.watchdog ≤ s.now
  running : s.timerStarted = true → ∀ e ∈ s.log, ∀ t₀ ∈ e.time,
    t₀ ≤ s.watchdog ∨ (c.repType = .smr ∧ .started 0 t₀ ∈ s.log)

theorem Event.Silent.time {e : Event} (h : e.Silent) : e.time = none := by
  cases e <;> simp_all [Event.Silent, Event.time]

/-- `t` comes after `s`, with no start and no delivery in between. -/
def UntimedAfter (s t : State) : Prop := ∃ l, t.log = l ++ s.log ∧ ∀ e ∈ l, e.time = none

theorem SilentlyAfter.untimed (h : SilentlyAfter s t) : UntimedAfter s t :=
  h.imp fun _ hl => ⟨hl.1, fun e he => (hl.2 e he).time⟩

/-- What has a time was in the log before. -/
theorem UntimedAfter.mem {e : Event} {t₀ : ℕ} (h : UntimedAfter s t) (he : e ∈ t.log)
    (ht₀ : t₀ ∈ e.time) : e ∈ s.log := by
  obtain ⟨l, hl, huntimed⟩ := h
  rw [hl] at he
  rcases List.mem_append.mp he with he | he
  · rw [huntimed e he] at ht₀
    cases ht₀
  · exact he

/-- Steps that start the timer at most, and start and deliver nothing, keep the chronicle. -/
theorem Chronicle.untimed (h : Chronicle c s) (hlog : UntimedAfter s t) (hnow : s.now ≤ t.now)
    (htimer : t.timerStarted = true →
      (s.timerStarted = true ∧ t.watchdog = s.watchdog) ∨ t.watchdog = t.now) :
    Chronicle c t := by
  have hmem : ∀ e ∈ s.log, e ∈ t.log := fun e he => by
    obtain ⟨l, hl, -⟩ := hlog
    rw [hl]
    exact List.mem_append_right l he
  refine ⟨fun e he t₀ ht₀ => (h.past e (hlog.mem he ht₀) t₀ ht₀).trans hnow,
    fun hstarted => ?_, fun hstarted e he t₀ ht₀ => ?_⟩
  · rcases htimer hstarted with ⟨hs, hw⟩ | hw
    · exact hw.trans_le ((h.watchdog hs).trans hnow)
    · exact hw.le
  · have he' := hlog.mem he ht₀
    rcases htimer hstarted with ⟨hs, hw⟩ | hw
    · rw [hw]
      exact (h.running hs e he' t₀ ht₀).imp_right (And.imp_right (hmem _))
    · rw [hw]
      exact .inl ((h.past e he' t₀ ht₀).trans hnow)

/-- A restart stops the timer. -/
theorem Chronicle.reset {u v : ℕ} (h : Chronicle c s) (hreset : Reset c s t u v) :
    Chronicle c t := by
  obtain ⟨forwards, hlog, hmem⟩ := hreset.log
  refine ⟨fun e he t₀ ht₀ => ?_, fun hstarted => ?_, fun hstarted => ?_⟩
  · rw [hreset.now]
    rw [hlog, List.mem_append, List.mem_cons, hmem] at he
    rcases he with ⟨p, -, -, -, rfl⟩ | rfl | he
    · simp [Event.time] at ht₀
    · simp only [Event.time, Option.mem_def, Option.some.injEq] at ht₀
      exact ht₀.ge
    · exact h.past e he t₀ ht₀
  · rw [hreset.timerStarted] at hstarted
    cases hstarted
  · rw [hreset.timerStarted] at hstarted
    cases hstarted

/-- What a start of the timer does, whether or not it was running. -/
theorem timer_of_startTimer {timerIndex : ℕ → ℕ}
    (htimer : t.timer = (startTimer timerIndex s p).timer) (hnow : t.now = s.now)
    (hstarted : t.timerStarted = true) :
    (s.timerStarted = true ∧ t.watchdog = s.watchdog) ∨ t.watchdog = t.now := by
  simp only [State.timer, Prod.mk.injEq] at htimer
  obtain ⟨hs, -, hw⟩ := htimer
  rw [hs] at hstarted
  simp only [startTimer] at hstarted hw
  split_ifs at hstarted hw
  · rename_i hrunning
    exact .inl ⟨hrunning, hw⟩
  · exact .inr (hw.trans hnow.symm)
  · exact .inr (hw.trans hnow.symm)
  · rename_i hoff _ _
    exact absurd hstarted hoff

theorem chronicle_step {a : Act} (hwf : WellFormed c s) (hclosed : Closed c s)
    (h : Chronicle c s) (ht : t ∈ step c s a) : Chronicle c t := by
  cases timer_cases hwf ht with
  | idle htimer hnow hlog =>
    simp only [State.timer, Prod.mk.injEq] at htimer
    obtain ⟨hs, -, hw⟩ := htimer
    exact h.untimed hlog.untimed hnow fun hstarted => .inl ⟨hs ▸ hstarted, hw⟩
  | @input sched ready p t hpoint hfind htimer hnow hlog =>
    -- the timer was off, as an external pipe was watched
    have hoff : s.timerStarted ≠ true := fun hon => by
      have hnone := hclosed hon ready (by rw [hpoint]; rfl)
      rw [hnone] at hfind
      cases hfind
    have hset : t.timerStarted = true → t.watchdog = t.now := fun hstarted =>
      (timer_of_startTimer htimer hnow hstarted).resolve_left fun hon => hoff hon.1
    have hpast : ∀ e ∈ t.log, ∀ t₀ ∈ e.time, t₀ ≤ t.now := by
      intro e he t₀ ht₀
      rw [hnow]
      rw [hlog] at he
      rcases List.mem_cons.mp he with rfl | he
      · simp only [Event.time, Option.mem_def, Option.some.injEq] at ht₀
        exact ht₀.ge
      · exact h.past e he t₀ ht₀
    refine ⟨hpast, fun hstarted => (hset hstarted).le, fun hstarted e he t₀ ht₀ => .inl ?_⟩
    rw [hset hstarted]
    exact hpast e he t₀ ht₀
  | output _ _ _ htimer hnow hlog =>
    exact h.untimed hlog.untimed hnow.ge fun hstarted => timer_of_startTimer htimer hnow hstarted
  | @sent sched p t _ _ _ _ htimer hnow hlog =>
    have huntimed : UntimedAfter s t := ⟨[.forwarded p], hlog, by simp [Event.time]⟩
    refine h.untimed huntimed hnow.ge fun hstarted => .inl ?_
    simp only [State.timer, Prod.mk.injEq] at htimer
    obtain ⟨hs, -, hw⟩ := htimer
    rw [hs] at hstarted
    simp only [stopTimer] at hstarted hw
    split_ifs at hstarted hw
    exact ⟨hstarted, hw⟩
  | outvoted _ _ _ _ _ hreset => exact h.reset hreset
  | behind _ _ _ _ _ _ hreset => exact h.reset hreset
  | cold hpoint hexpired htype htimer hnow hlog =>
    obtain ⟨l, hlog, hmem⟩ := hlog
    simp only [State.timer, Prod.mk.injEq] at htimer
    obtain ⟨hs, -, hw⟩ := htimer
    have hnew : ∀ e ∈ t.log, ∀ t₀ ∈ e.time, e ∈ s.log ∨ t₀ = s.now := by
      intro e he t₀ ht₀
      rw [hlog, List.mem_append, List.mem_cons] at he
      rcases he with he | rfl | he
      · obtain ⟨p, rfl⟩ := hmem e he
        exact .inr (Option.some.inj ht₀).symm
      · exact .inr (Option.some.inj ht₀).symm
      · exact .inl he
    refine ⟨fun e he t₀ ht₀ => ?_, fun _ => ?_, fun _ e he t₀ ht₀ => ?_⟩
    · rw [hnow]
      rcases hnew e he t₀ ht₀ with hold | rfl
      · exact h.past e hold t₀ ht₀
      · exact le_rfl
    · rw [hw, hnow]
      exact h.watchdog hexpired.1
    · rw [hw]
      rcases hnew e he t₀ ht₀ with hold | rfl
      · refine (h.running hexpired.1 e hold t₀ ht₀).imp_right (And.imp_right fun hstart => ?_)
        rw [hlog]
        exact List.mem_append_right l (List.mem_cons_of_mem _ hstart)
      · refine .inr ⟨htype, ?_⟩
        rw [hlog]
        exact List.mem_append_right l List.mem_cons_self

/-! ### The budget -/

/-- SMR with one timed input and one timed output. -/
def loneConfig : Config :=
  parseArgs "SMR" 1000 25 [⟨"RANGE_POSE_DATA", 3, 0, true⟩, ⟨"MOV_CMD", 0, 4, true⟩]
    fun _ => zeroPipe

theorem initial_lone : Initial loneConfig (start loneConfig 6) :=
  initial_start (by decide +kernel) (by decide) (by decide +kernel)

/-- Input that is not answered in time. -/
def unanswered : List Act :=
  [.externalWrites 0 [1], .update granted, .select, .external granted, .scan, .scan, .scan,
    .tick 2302000]

end S3RES.VoterD
