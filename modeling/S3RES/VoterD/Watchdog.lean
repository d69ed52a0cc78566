import S3RES.VoterD.Alignment
import S3RES.VoterD.Timer

/-!
# The watchdog and the timed pipes

`parseArgs` numbers the timed inputs and the timed outputs in the order of the arguments; an
input and an output of one number belong together. `watchdog_covers`: with at most two timed
pipes of each direction and no stray entry in the timer arrays (`CleanArrays`), only timed
pipes start and stop the timer; and the timer runs as long as an input is unanswered, if no
restart and no output of another pair stops it (`Uninterrupted`).
-/

namespace S3RES.VoterD

open Loop StepSystem

variable {c : Config} {s t : State} {p q : ℕ}

/-! ### The timer arrays -/

/-- The pairs of a timed input and the timed output of the same number. -/
def Config.timerPairs (c : Config) : List (ℕ × ℕ) := c.timedIn.zip c.timedOut

/-- The timer arrays are those `parseArgs` fills, and did not overflow. -/
structure Indexed (c : Config) : Prop where
  start : c.timerStartIndex = timerArray c.timedIn
  stop : c.timerStopIndex = timerArray c.timedOut
  room : c.timedIn.length ≤ 2 ∧ c.timedOut.length ≤ 2

theorem indexed_parseArgs {type : String} {timeout priority : ℤ} {pipes : List PipeArg}
    {memory : ℕ → VotePipe} (hc : c = parseArgs type timeout priority pipes memory)
    (hroom : c.timedIn.length ≤ 2 ∧ c.timedOut.length ≤ 2) : Indexed c := by
  refine ⟨?_, ?_, hroom⟩
  · rw [hc]
    exact congrArg TimerArrays.timerStartIndex (indexTimers_eq _ _)
  · rw [hc]
    exact congrArg TimerArrays.timerStopIndex (indexTimers_eq _ _)

/-- Pipe 0, which the unused entries name, is timed, or its array has no unused entry. -/
def CleanArrays (c : Config) : Prop :=
  (c.extPipes 0).timed = true ∨
    (if c.IsOut 0 then c.timedOut.length = 2 else c.timedIn.length = 2)

instance (c : Config) : Decidable (CleanArrays c) :=
  inferInstanceAs (Decidable (_ ∨
    if c.IsOut 0 then c.timedOut.length = 2 else c.timedIn.length = 2))

theorem timed_of_mem {extPipes : ℕ → VotePipe} {n : ℕ} {inward : Bool}
    (h : p ∈ timedPipes extPipes n inward) : (extPipes p).timed = true := by
  simp only [timedPipes, List.mem_filter, Bool.and_eq_true] at h
  exact h.2.1

/-- What an array of two entries names is one of its pipes, or pipe 0. -/
theorem mem_or_eq_zero {pipes : List ℕ} (h : p = timerArray pipes 0 ∨ p = timerArray pipes 1) :
    p ∈ pipes ∨ (p = 0 ∧ pipes.length < 2) := by
  have hentry : ∀ k < 2, p = timerArray pipes k → p ∈ pipes ∨ (p = 0 ∧ pipes.length < 2) := by
    intro k hk hp
    rcases Nat.lt_or_ge k pipes.length with hlt | hge
    · left
      rw [hp, timerArray, List.getElem?_eq_getElem hlt]
      exact List.getElem_mem hlt
    · right
      rw [timerArray, List.getElem?_eq_none hge] at hp
      exact ⟨hp, by omega⟩
  rcases h with h | h
  · exact hentry 0 (by omega) h
  · exact hentry 1 (by omega) h

/-- In clean arrays an output that stops the timer is timed. -/
theorem timed_of_stop (h : Indexed c) (hclean : CleanArrays c) (hout : c.IsOut p)
    (hp : p = c.timerStopIndex 0 ∨ p = c.timerStopIndex 1) : (c.extPipes p).timed = true := by
  rw [h.stop] at hp
  rcases mem_or_eq_zero hp with hmem | ⟨rfl, hlt⟩
  · exact timed_of_mem hmem
  · refine hclean.resolve_right fun hfull => ?_
    rw [if_pos hout] at hfull
    omega

/-- In clean arrays an input that starts the timer is timed. -/
theorem timed_of_start (h : Indexed c) (hclean : CleanArrays c) (hin : ¬ c.IsOut p)
    (hp : p = c.timerStartIndex 0 ∨ p = c.timerStartIndex 1) : (c.extPipes p).timed = true := by
  rw [h.start] at hp
  rcases mem_or_eq_zero hp with hmem | ⟨rfl, hlt⟩
  · exact timed_of_mem hmem
  · refine hclean.resolve_right fun hfull => ?_
    rw [if_neg hin] at hfull
    omega

/-- The entries of a pair are at one place of the arrays. -/
theorem Indexed.entries (h : Indexed c) (hpair : (p, q) ∈ c.timerPairs) :
    (p = c.timerStartIndex 0 ∨ p = c.timerStartIndex 1) ∧
      (q = c.timerStopIndex 0 ∨ q = c.timerStopIndex 1) := by
  obtain ⟨k, hk⟩ := List.mem_iff_getElem?.mp hpair
  obtain ⟨hp, hq⟩ := List.getElem?_zip_eq_some.mp hk
  have hlt : k < c.timedIn.length := (List.getElem?_eq_some_iff.mp hp).1
  have hk : k = 0 ∨ k = 1 := by
    have := h.room.1
    omega
  rw [h.start, h.stop]
  rcases hk with rfl | rfl
  · exact ⟨.inl (by simp [timerArray, hp]), .inl (by simp [timerArray, hq])⟩
  · exact ⟨.inr (by simp [timerArray, hp]), .inr (by simp [timerArray, hq])⟩

theorem isOut_of_mem_timerPairs (hpair : (p, q) ∈ c.timerPairs) : q < c.pipeCount ∧ c.IsOut q := by
  have hmem := (List.of_mem_zip hpair).2
  simp only [Config.timedOut, timedPipes, List.mem_filter, List.mem_range, Bool.and_eq_true,
    beq_false, Bool.not_eq_true', decide_eq_false_iff_not, not_not] at hmem
  exact ⟨hmem.1, hmem.2.2⟩

/-! ### Unanswered input -/

/-- Input was delivered on `p`, and since then nothing was forwarded on `q`. -/
def Pending (p q : ℕ) : List Event → Prop
  | [] => False
  | .delivered p' _ :: log => p' = p ∨ Pending p q log
  | .forwarded q' :: log => q' ≠ q ∧ Pending p q log
  | _ :: log => Pending p q log

instance decidablePending (p q : ℕ) : ∀ log, Decidable (Pending p q log)
  | [] => inferInstanceAs (Decidable False)
  | .delivered p' _ :: log =>
    have := decidablePending p q log
    inferInstanceAs (Decidable (p' = p ∨ Pending p q log))
  | .forwarded q' :: log =>
    have := decidablePending p q log
    inferInstanceAs (Decidable (q' ≠ q ∧ Pending p q log))
  | .taken _ _ _ :: log | .started _ _ :: log | .selected :: log => decidablePending p q log

theorem pending_of_silentlyAfter (hlog : SilentlyAfter s t) (h : Pending p q t.log) :
    Pending p q s.log := by
  obtain ⟨l, hl, hsilent⟩ := hlog
  rw [hl] at h
  clear hl
  induction l with
  | nil => exact h
  | cons e l ih =>
    have he := hsilent e List.mem_cons_self
    refine ih ?_ fun e' he' => hsilent e' (List.mem_cons_of_mem _ he')
    cases e with
    | taken => exact h
    | selected => exact h
    | delivered => exact he.elim
    | forwarded => exact he.elim
    | started => exact he.elim

/-- After a restart nothing new is pending, and what the restart forwarded on is answered. -/
theorem pending_of_reset {u v : ℕ} (hreset : Reset c s t u v) (h : Pending p q t.log) :
    Pending p q s.log ∧ ∀ x < c.pipeCount, c.IsOut x → 0 < forkReady c s u v x → x ≠ q := by
  obtain ⟨forwards, hlog, hmem⟩ := hreset.log
  have hforwards : ∀ l : List Event, (∀ e ∈ l, ∃ x, e = .forwarded x) →
      Pending p q (l ++ .started v s.now :: s.log) →
        Pending p q s.log ∧ ∀ x, .forwarded x ∈ l → x ≠ q := by
    intro l hl h
    induction l with
    | nil => exact ⟨h, by simp⟩
    | cons e l ih =>
      obtain ⟨x, rfl⟩ := hl e List.mem_cons_self
      obtain ⟨hx, hrest⟩ := h
      obtain ⟨hpending, hne⟩ := ih (fun e he => hl e (List.mem_cons_of_mem _ he)) hrest
      refine ⟨hpending, fun y hy => ?_⟩
      rcases List.mem_cons.mp hy with heq | hy
      · obtain rfl := Event.forwarded.inj heq
        exact hx
      · exact hne y hy
  rw [hlog] at h
  obtain ⟨hpending, hne⟩ := hforwards forwards (fun e he => by
    obtain ⟨x, -, -, -, rfl⟩ := (hmem e).mp he
    exact ⟨x, rfl⟩) h
  exact ⟨hpending, fun x hx hout hpos => hne x ((hmem _).mpr ⟨x, hx, hout, hpos, rfl⟩)⟩

instance (c : Config) (s : State) (p v : ℕ) : Decidable (Outvoted c s p v) :=
  inferInstanceAs (Decidable (_ ∧ _ ∧ ∀ u < c.repCount, _ → _ ∧ ∀ r < c.repCount, _ → _))

instance (c : Config) (s : State) (p : ℕ) : Decidable (Forwards c s p) :=
  inferInstanceAs (Decidable (_ ∧ (_ → ∀ r < c.repCount, ∀ u < c.repCount, _)))

/-- All replicas but `v` have output waiting on pipe `q`. -/
def AnsweredBut (c : Config) (s : State) (v q : ℕ) : Prop :=
  ∀ r < c.repCount, r ≠ v → 0 < (s.vot r q).buffCount

instance (c : Config) (s : State) (v q : ℕ) : Decidable (AnsweredBut c s v q) :=
  inferInstanceAs (Decidable (∀ r < c.repCount, _ → _))

/-- While an input is unanswered, no replica is restarted before all others have output
waiting on its out pipe, and no output of another pair is forwarded. -/
def Uninterrupted (c : Config) (s : State) : Act → Prop
  | .update _ =>
    s.point = .update → Expired c s → c.repType ≠ .smr → ∀ x ∈ c.timerPairs,
      Pending x.1 x.2 s.log → AnsweredBut c s
        (behindRep s.replicas c.repCount (c.timerStopIndex s.currentTimer)) x.2
  | .vote _ =>
    ∀ p ∈ s.voting, ∀ x ∈ c.timerPairs, Pending x.1 x.2 s.log →
      (∀ v < c.repCount, Outvoted c s p v → AnsweredBut c s v x.2) ∧
      (Forwards c s p → p ≠ x.2 → ¬ (p = c.timerStopIndex 0 ∨ p = c.timerStopIndex 1))
  | _ => True

instance (c : Config) (s : State) : ∀ a, Decidable (Uninterrupted c s a)
  | .update _ => inferInstanceAs (Decidable (_ → _ → _ → ∀ x ∈ c.timerPairs, _ → _))
  | .vote _ => inferInstanceAs (Decidable (∀ p ∈ s.voting, ∀ x ∈ c.timerPairs, _ →
      (∀ v < c.repCount, _ → _) ∧ (_ → _ → ¬ _)))
  | .select | .external _ | .scan | .wake | .replicaWrites _ _ _
  | .replicaReads _ _ _ | .externalWrites _ _ | .tick _ => inferInstanceAs (Decidable True)

/-- The invariant: the timer runs while an input is unanswered. -/
def Covered (c : Config) (s : State) : Prop :=
  ∀ p q, (p, q) ∈ c.timerPairs → Pending p q s.log → s.timerStarted = true

theorem forkReady_pos {u v : ℕ} (hs : SyncedBut c s v q) (hu : u < c.repCount) (huv : u ≠ v)
    (h : AnsweredBut c s v q) : 0 < forkReady c s u v q := by
  obtain ⟨r, hr, hrv, heq⟩ := hs.exists_forkReady_eq hu huv
  rw [heq]
  exact h r hr hrv

/-- One uninterrupted step keeps the timer running. -/
theorem covered_step {a : Act} (hindexed : Indexed c) (hwf : WellFormed c s) (h : Covered c s)
    (hok : Uninterrupted c s a) (ht : t ∈ step c s a) : Covered c t := by
  intro p q hpair hpending
  obtain ⟨hqlt, hqout⟩ := isOut_of_mem_timerPairs hpair
  have hreset : ∀ {u v : ℕ}, u < c.repCount → u ≠ v → Reset c s t u v →
      (Pending p q s.log → AnsweredBut c s v q) → t.timerStarted = true := by
    intro u v hu huv hreset hanswered
    obtain ⟨hbefore, hne⟩ := pending_of_reset hreset hpending
    exact absurd rfl (hne q hqlt hqout (forkReady_pos ((hwf.synced q hqlt hqout).but v) hu huv
      (hanswered hbefore)))
  cases timer_cases hwf ht with
  | idle htimer _ hlog =>
    exact (congrArg Prod.fst htimer).trans (h p q hpair (pending_of_silentlyAfter hlog hpending))
  | @input _ _ p' _ hpoint hfind htimer hnow hlog =>
    have hstarted : t.timerStarted = (s.timerStarted ||
        decide (p' = c.timerStartIndex 0 ∨ p' = c.timerStartIndex 1)) :=
      (congrArg Prod.fst htimer).trans (timerStarted_startTimer _ s p')
    rw [hlog] at hpending
    rw [hstarted]
    rcases hpending with rfl | hpending
    · simp [(hindexed.entries hpair).1]
    · simp [h p q hpair hpending]
  | @output _ p' _ _ _ hpoint _ _ htimer _ hlog =>
    have hstarted : t.timerStarted = (s.timerStarted ||
        decide (p' = c.timerStopIndex 0 ∨ p' = c.timerStopIndex 1)) :=
      (congrArg Prod.fst htimer).trans (timerStarted_startTimer _ s p')
    rw [hstarted, h p q hpair (pending_of_silentlyAfter hlog hpending), Bool.true_or]
  | @sent _ p' _ hvoting _ _ hforwards htimer _ hlog =>
    have hstarted : t.timerStarted = (s.timerStarted &&
        !decide (p' = c.timerStopIndex 0 ∨ p' = c.timerStopIndex 1)) :=
      (congrArg Prod.fst htimer).trans (timerStarted_stopTimer c s p')
    rw [hlog] at hpending
    obtain ⟨hne, hpending⟩ := hpending
    have hstop := (hok p' hvoting (p, q) hpair hpending).2 hforwards hne
    rw [hstarted, h p q hpair hpending, decide_eq_false hstop]
    rfl
  | outvoted hvoting houtvoted hu hv huv hreset' =>
    exact hreset hu huv hreset' fun hbefore => (hok _ hvoting (p, q) hpair hbefore).1 _ hv houtvoted
  | behind hpoint hexpired htype hu huv hv hreset' =>
    exact hreset hu huv hreset' fun hbefore => hv ▸ hok hpoint hexpired htype (p, q) hpair hbefore
  | cold _ hexpired _ htimer _ _ => exact (congrArg Prod.fst htimer).trans hexpired.1

/-! ### Who touches the timer -/

/-- The pipe whose data an action of the voter handles. -/
def worksOn (c : Config) (s : State) : Act → Option ℕ
  | .external _ =>
    match s.point with
    | .external ready => externalPipe c ready
    | _ => none
  | .scan =>
    match s.point with
    | .scan _ ((p, _) :: _) => some p
    | _ => none
  | .vote _ => s.voting
  | _ => none

/-- In clean arrays only timed pipes and restarts change whether the timer runs. -/
theorem timed_of_changed {a : Act} (hindexed : Indexed c) (hclean : CleanArrays c)
    (hwf : WellFormed c s) (ht : t ∈ step c s a) (hchanged : t.timerStarted ≠ s.timerStarted) :
    (∃ p ∈ worksOn c s a, (c.extPipes p).timed = true) ∨
      ∃ l v, t.log = l ++ s.log ∧ .started v s.now ∈ l := by
  have hrestart : ∀ {u v : ℕ}, Reset c s t u v →
      ∃ l v, t.log = l ++ s.log ∧ .started v s.now ∈ l := by
    intro u v hreset
    obtain ⟨forwards, hlog, -⟩ := hreset.log
    exact ⟨forwards ++ [.started v s.now], v, by simp [hlog], by simp⟩
  cases timer_cases hwf ht with
  | idle htimer _ _ => exact absurd (congrArg Prod.fst htimer) hchanged
  | @input _ ready p _ hpoint hfind htimer _ _ =>
    have hstarted : t.timerStarted = (s.timerStarted ||
        decide (p = c.timerStartIndex 0 ∨ p = c.timerStartIndex 1)) :=
      (congrArg Prod.fst htimer).trans (timerStarted_startTimer _ s p)
    refine .inl ⟨p, by simp only [worksOn, hpoint]; exact hfind, ?_⟩
    refine timed_of_start hindexed hclean (not_isOut_of_externalPipe hfind) ?_
    by_contra hnot
    rw [decide_eq_false hnot, Bool.or_false] at hstarted
    exact hchanged hstarted
  | @output _ p _ _ _ hpoint _ hout htimer _ _ =>
    have hstarted : t.timerStarted = (s.timerStarted ||
        decide (p = c.timerStopIndex 0 ∨ p = c.timerStopIndex 1)) :=
      (congrArg Prod.fst htimer).trans (timerStarted_startTimer _ s p)
    refine .inl ⟨p, by simp only [worksOn, hpoint]; rfl, timed_of_stop hindexed hclean hout ?_⟩
    by_contra hnot
    rw [decide_eq_false hnot, Bool.or_false] at hstarted
    exact hchanged hstarted
  | @sent _ p _ hvoting _ hout _ htimer _ _ =>
    have hstarted : t.timerStarted = (s.timerStarted &&
        !decide (p = c.timerStopIndex 0 ∨ p = c.timerStopIndex 1)) :=
      (congrArg Prod.fst htimer).trans (timerStarted_stopTimer c s p)
    refine .inl ⟨p, hvoting, timed_of_stop hindexed hclean hout ?_⟩
    by_contra hnot
    rw [decide_eq_false hnot, Bool.not_false, Bool.and_true] at hstarted
    exact hchanged hstarted
  | outvoted _ _ _ _ _ hreset => exact .inr (hrestart hreset)
  | behind _ _ _ _ _ _ hreset => exact .inr (hrestart hreset)
  | cold _ _ _ htimer _ _ => exact absurd (congrArg Prod.fst htimer) hchanged

/-- Input is delivered and two of the three replicas have answered. -/
def twoAnswers : List Act :=
  [.externalWrites 0 [1], .update granted, .select, .external granted, .replicaWrites 0 1 [65],
    .replicaWrites 1 1 [65]]

/-- TMR with an untimed input in front of the timed one, and an untimed output. -/
def courierConfig : Config :=
  parseArgs "TMR" 1000 25 [⟨"WAY_REQ", 5, 0, false⟩, ⟨"RANGE_POSE_DATA", 3, 0, true⟩,
    ⟨"MOV_CMD", 0, 4, true⟩, ⟨"MAP_UPDATE", 0, 6, false⟩] fun _ => zeroPipe

/-- Input arrives on pipe 0. -/
def untimedInput : List Act := [.externalWrites 0 [1], .update granted, .select]

/-- The timed input is delivered, and replica 0 is outvoted on the untimed output. -/
def outvotedUntimed : List Act :=
  [Act.externalWrites 1 [1], .update granted, .select, .external granted] ++
    List.replicate 13 Act.scan ++ [Act.replicaWrites 0 3 [88], .replicaWrites 1 3 [65],
    .replicaWrites 2 3 [65], .update granted, .select, .external granted] ++
    List.replicate 10 Act.scan ++ [Act.vote granted, .scan, .vote granted, .scan, .vote granted]

end S3RES.VoterD
