import S3RES.VoterM.Gathering

/-!
# A timed round with a faulty replica, on a single core

TMR in the build for a single core: `sendCollect` gives one replica after the other its input
and waits for its answer. Two replicas answer with `A`, the write on the awaited out pipe `q`
last; the third, `f`, may have left something in its pipes and writes what it likes.
`single_masked`: if the time is never up while the voter waits for one of the two
(`OnTime`), what is sent is `A`, and nobody but `f` is killed.
-/

namespace S3RES.VoterM.SingleCore

open Delivery StepSystem

variable {c : Config} {m m' m₀ : Machine} {s t : State} {A : ℕ → List UInt8} {f n q r : ℕ}
  {done : Bool} {todo : List (ℕ × ℕ)}

/-- The start of a timed round: input was received, nothing is held, and the out pipes of all
replicas but `f` are empty. -/
structure RoundStart (c : Config) (f q : ℕ) (m : Machine) : Prop where
  point : m.point = .turn 0 0
  waits : checkWaitOnInput c m.toState = true
  awaited : c.timerStopIndex m.activePipeIndex = q
  counts : ∀ r < c.repCount, ∀ p < c.outPipeCount, (m.replicas r).buffCounts p = 0
  queue : ∀ r < c.repCount, r ≠ f → ∀ p < c.outPipeCount, m.outQueue r p = []
  wrote : ∀ r < c.repCount, r ≠ f → ∀ p < c.outPipeCount, (m.procs r).wrote p = []

/-- The replica whose turn it is, while the voter is at the head of its loop. -/
def Machine.checking (m : Machine) : Option ℕ :=
  match m.point with
  | .collect r _ _ .check => some r
  | _ => none

/-- The time is not up while the voter waits for a replica other than `f`. -/
def OnTime (c : Config) (f : ℕ) (m : Machine) : Act → Prop
  | .voter _ => ∀ r ∈ m.checking, r ≠ f → ¬ Expired c m.toState
  | _ => True

instance (c : Config) (f : ℕ) (m : Machine) : ∀ a, Decidable (OnTime c f m a)
  | .voter _ => inferInstanceAs (Decidable (∀ r ∈ m.checking, _ → _))
  | .replicaWrites _ _ _ | .replicaReads _ _ _ | .externalWrites _ _ | .tick _ =>
    inferInstanceAs (Decidable True)

/-- The voter does not go on to the next round. -/
def InRound (m : Machine) : Act → Prop
  | .voter _ => m.point ≠ .receive
  | _ => True

instance (m : Machine) : ∀ a, Decidable (InRound m a)
  | .voter _ => inferInstanceAs (Decidable (_ ≠ _))
  | .replicaWrites _ _ _ | .replicaReads _ _ _ | .externalWrites _ _ | .tick _ =>
    inferInstanceAs (Decidable True)

/-- It is the turn of replica `r`, of whom these reads are left, with `n` answers counted. -/
structure Polling (c : Config) (A : ℕ → List UInt8) (f q r n : ℕ) (done : Bool)
    (todo : List (ℕ × ℕ)) (s : State) : Prop where
  waits : checkWaitOnInput c s = true
  awaited : c.timerStopIndex s.activePipeIndex = q
  sound : ∀ r' < c.repCount, r' ≠ f → Sound c.outs A q (s.channels r') fun p => (r', p) ∈ todo
  nodup : todo.Nodup
  range : ∀ x ∈ todo, x.1 = r ∧ x.2 < c.outPipeCount
  answered : ∀ r' < r, r' ≠ f → s.held r' q ≠ []
  current : done = true → s.held r q ≠ [] ∧ (r, q) ∉ todo
  tally : n = r + done.toNat ∨ f < r ∧ s.faultIndex = f ∧ n + 1 = r + done.toNat

theorem Polling.congr (h : Polling c A f q r n done todo s) (hsteady : Steady s t)
    (hchannels : t.channels = s.channels) : Polling c A f q r n done todo t := by
  have hheld : t.held = s.held := funext fun r => congrArg Channels.held (congrFun hchannels r)
  refine ⟨(checkWaitOnInput_congr hsteady.activePipeIndex).trans h.waits,
    hsteady.activePipeIndex ▸ h.awaited, fun r' hr' hne => ?_, h.nodup, h.range, ?_, ?_, ?_⟩
  · rw [hchannels]
    exact h.sound r' hr' hne
  · rw [hheld]
    exact h.answered
  · rw [hheld]
    exact h.current
  · rw [hsteady.faultIndex]
    exact h.tally

/-- The others act while it is the turn of `r`. -/
theorem Polling.other {a : Act} (h : Polling c A f q r n done todo s)
    (hok : Answers c A q {r | r ≠ f} s a) (ht : OtherCase c s a t) :
    Polling c A f q r n done todo t := by
  have hsteady := ht.steady
  refine ⟨(checkWaitOnInput_congr hsteady.activePipeIndex).trans h.waits,
    hsteady.activePipeIndex ▸ h.awaited,
    fun r' hr' hne => ht.sound hok hne (h.sound r' hr' hne), h.nodup, h.range, ?_, ?_, ?_⟩
  · rw [ht.held]
    exact h.answered
  · rw [ht.held]
    exact h.current
  · rw [hsteady.faultIndex]
    exact h.tally

/-- `select` returns. -/
theorem Polling.select (h : Polling c A f q r n false [] s) (hq : q < c.outPipeCount) :
    Polling c A f q r n false (readyOf c s r) s := by
  refine ⟨h.waits, h.awaited, fun r' hr' hne => ?_, nodup_readyOf c s r, fun x hx => ?_,
    h.answered, fun hdone => Bool.noConfusion hdone, h.tally⟩
  · have hsound : Sound c.outs A q (s.channels r') fun _ => False :=
      (h.sound r' hr' hne).congr fun p => by simp
    rcases eq_or_ne r' r with rfl | hrr
    · refine hsound.snapshot hq fun p hp => ?_
      rw [mem_readyOf]
      exact ⟨fun hmem => hmem.2.2, fun hqueue => ⟨rfl, hp, hqueue⟩⟩
    · refine hsound.congr fun p => iff_of_false (fun hmem => hrr ?_) id
      exact (mem_readyOf.mp hmem).1
  · obtain ⟨hr, hp, -⟩ := mem_readyOf.mp hx
    exact ⟨hr, hp⟩

/-- The voter reads a pipe of replica `r`. -/
theorem Polling.read {p : ℕ} {x : ℕ} (h : Polling c A f q r n done ((x, p) :: todo) s)
    (hr : r < c.repCount) (hA : ∀ p < c.outPipeCount, (A p).length ≤ maxPipeBuff)
    (hne : s.outQueue r p ≠ []) :
    Polling c A f q r (if p = q then n + 1 else n) (done || p = q) todo (readOut s r p) := by
  obtain ⟨rfl, hp⟩ := h.range (x, p) List.mem_cons_self
  obtain ⟨hnotMem, hnodup⟩ := List.nodup_cons.mp h.nodup
  refine ⟨h.waits, h.awaited, fun r' hr' hrf => ?_, hnodup,
    fun y hy => h.range y (List.mem_cons_of_mem _ hy),
    fun r' hr' hrf => held_readOut_ne_nil hne (h.answered r' hr' hrf), fun hdone => ?_, ?_⟩
  · exact sound_readOut (h.sound r' hr' hrf) hp hA hnotMem
  · rcases eq_or_ne p q with rfl | hpq
    · exact ⟨held_readOut_self hne, hnotMem⟩
    · have hdone' : done = true := by simpa [hpq] using hdone
      obtain ⟨hheld, hout⟩ := h.current hdone'
      exact ⟨held_readOut_ne_nil hne hheld, fun hin => hout (List.mem_cons_of_mem _ hin)⟩
  · change _ ∨ f < x ∧ s.faultIndex = f ∧ _
    rcases eq_or_ne p q with rfl | hpq
    · -- the answer of `x` is counted for the first time
      have hdone : done = false := by
        by_contra hdone
        exact (h.current (by simpa using hdone)).2 List.mem_cons_self
      have htally := h.tally
      simp only [hdone, Bool.toNat_false, Nat.add_zero] at htally
      simpa [hdone] using htally
    · simpa [hpq] using h.tally

/-- The turn of `r` is over. -/
theorem Polling.endTurn (h : Polling c A f q r n true [] s) :
    Polling c A f q (r + 1) n false [] s := by
  refine ⟨h.waits, h.awaited, h.sound, h.nodup, by simp, fun r' hr' hne => ?_,
    fun hdone => Bool.noConfusion hdone, ?_⟩
  · rcases Nat.lt_succ_iff_lt_or_eq.mp hr' with hlt | rfl
    · exact h.answered r' hlt hne
    · exact (h.current rfl).1
  · have htally := h.tally
    simp only [Bool.toNat_true, Bool.toNat_false, Nat.add_zero] at htally ⊢
    omega

/-- The time of `f` is up. -/
theorem Polling.timeout (h : Polling c A f q f n false [] s) :
    Polling c A f q (f + 1) n false [] { s with timeoutOccurred := true, faultIndex := f } := by
  refine ⟨h.waits, h.awaited, h.sound, h.nodup, by simp, fun r' hr' hne => ?_,
    fun hdone => Bool.noConfusion hdone, .inr ⟨by omega, rfl, ?_⟩⟩
  · exact h.answered r' (by omega) hne
  · have htally := h.tally
    simp only [Bool.toNat_false, Nat.add_zero] at htally ⊢
    omega

theorem steady_setPriority (s : State) (r : ℕ) (priority : ℤ) (sched : Bool) :
    Steady s (setPriority s r priority sched) := by
  rw [setPriority]
  split
  · exact ⟨rfl, rfl, rfl, rfl, rfl⟩
  · exact .refl s

theorem channels_setPriority (s : State) (r : ℕ) (priority : ℤ) (sched : Bool) :
    (setPriority s r priority sched).channels = s.channels := by
  rw [setPriority]
  split
  · funext r'
    have hheld : State.held { s with
        replicas := Function.update s.replicas r { s.replicas r with priority := priority } } r' =
        s.held r' := by
      funext p
      rcases eq_or_ne r' r with rfl | hr
      · simp [State.held]
      · simp [State.held, hr]
    simp only [State.channels, hheld]
  · rfl

/-- The invariant of the round. -/
def Inv (c : Config) (A : ℕ → List UInt8) (f q : ℕ) (m₀ m : Machine) : Prop :=
  match m.point with
  | .turn r n => r ≤ c.repCount ∧ Polling c A f q r n false [] m.toState ∧
    m.extOut = m₀.extOut ∧ m.log = m₀.log
  | .collect r n done stage => r < c.repCount ∧ (done = true → ∃ todo, stage = .scan todo) ∧
    Polling c A f q r n done stage.todo m.toState ∧ m.extOut = m₀.extOut ∧ m.log = m₀.log
  | .receive => Closed c A {f} m₀.toState m.toState
  | _ => False

theorem inv_start (hq : q < c.outPipeCount) (h : RoundStart c f q m₀) : Inv c A f q m₀ m₀ := by
  simp only [Inv, h.point, and_true]
  refine ⟨Nat.zero_le _, h.waits, h.awaited, fun r hr hne => ?_, List.nodup_nil, by simp,
    fun r hr => absurd hr r.not_lt_zero, fun hdone => Bool.noConfusion hdone, .inl rfl⟩
  have hheld : ∀ p ∈ c.outs, (m₀.channels r).held p = [] :=
    fun p hp => buffCounts_eq_zero_iff.mp (h.counts r hr p hp)
  exact (sound_start hheld (h.queue r hr hne) (h.wrote r hr hne) hq).congr fun p => by simp

/-- The end of `sendCollect` closes the round. -/
theorem Polling.closed (h : Polling c A f q 3 n false [] s) (hthree : c.repCount = 3) (hf : f < 3) :
    (afterCollect c s n).point = .receive ∧ Closed c A {f} s (afterCollect c s n).toState := by
  have hholds : ∀ r < 3, r ≠ f → Holds c A s r := by
    intro r hr hne p hp
    have hsound : Sound c.outs A q (s.channels r) fun _ => False :=
      (h.sound r (by omega) hne).congr fun p => by simp
    exact (hsound.complete (h.answered r hr hne) hp).1
  rw [afterCollect, if_pos h.waits]
  split
  · exact ⟨rfl, majority_vote hthree hf hholds⟩
  · rename_i hcount
    have hindex : s.faultIndex = f := by
      rcases h.tally with htally | ⟨-, hindex, -⟩
      · exact absurd (by simpa [hthree] using htally) hcount
      · exact hindex
    simp only [hindex, hthree, OfNat.ofNat_ne_one, if_false]
    exact ⟨trivial, closed_recover hthree hindex hholds⟩

/-- The others leave the round as it is. -/
theorem inv_other {a : Act} {s : State} (h : Inv c A f q m₀ m)
    (hanswers : Answers c A q {r | r ≠ f} m.toState a) (hs : OtherCase c m.toState a s) :
    Inv c A f q m₀ { m with toState := s } := by
  have hsteady := hs.steady
  rcases m with ⟨s₁, point⟩
  cases point with
  | turn r n =>
    obtain ⟨hr, hpolling, hextOut, hlog⟩ := h
    exact ⟨hr, hpolling.other hanswers hs, hsteady.extOut.trans hextOut, hsteady.log.trans hlog⟩
  | collect r n done stage =>
    obtain ⟨hr, hdone, hpolling, hextOut, hlog⟩ := h
    exact ⟨hr, hdone, hpolling.other hanswers hs, hsteady.extOut.trans hextOut,
      hsteady.log.trans hlog⟩
  | receive =>
    refine ⟨fun p hp => ?_, fun r hr p hp => ?_, ?_⟩
    · exact (congrFun hsteady.extOut p).trans (h.extOut p hp)
    · exact (congrFun (congrFun hs.held r) p).trans (h.held r hr p hp)
    · obtain ⟨l, hlog, hmem⟩ := h.log
      exact ⟨l, hsteady.log.trans hlog, hmem⟩
  | received => exact h
  | retry => exact h

/-- A turn begins, or the round is closed. -/
theorem inv_turn {s : State} {r n : ℕ} {sched : Bool} (hthree : c.repCount = 3) (hf : f < 3)
    (h : Inv c A f q m₀ ⟨s, .turn r n⟩) (hm : m' ∈ main c ⟨s, .turn r n⟩ sched) :
    Inv c A f q m₀ m' := by
  obtain ⟨hr, hpolling, hextOut, hlog⟩ := h
  simp only [main] at hm
  split at hm
  · rename_i hlt
    have hwaits : checkWaitOnInput c (writeInput s r) = true := hpolling.waits
    simp only [hwaits, if_true, Option.mem_def, Option.some.injEq] at hm
    subst hm
    set s' : State := { writeInput s r with watchdog := (writeInput s r).now }
    have hsteady := steady_setPriority s' r (c.voterPriority - 1) sched
    have hpolling' : Polling c A f q r n false [] s' :=
      hpolling.congr ⟨rfl, rfl, rfl, rfl, rfl⟩ rfl
    exact ⟨hlt, fun hdone => Bool.noConfusion hdone,
      hpolling'.congr hsteady (channels_setPriority s' r _ sched),
      hsteady.extOut.trans hextOut, hsteady.log.trans hlog⟩
  · simp only [Option.mem_def, Option.some.injEq] at hm
    subst hm
    obtain rfl : r = 3 := by omega
    obtain ⟨hpoint, hclosed⟩ := hpolling.closed hthree hf
    rw [Inv, hpoint]
    refine ⟨fun p hp => ?_, hclosed.held, ?_⟩
    · rw [hclosed.extOut p hp]
      exact congrArg (· ++ A p) (congrFun hextOut p)
    · rw [← hlog]
      exact hclosed.log

/-- A step of the loop over the pipes of one replica. -/
theorem inv_collect {s : State} {r n : ℕ} {done : Bool} {stage : Stage} {sched : Bool}
    (hq : q < c.outPipeCount) (hA : ∀ p < c.outPipeCount, (A p).length ≤ maxPipeBuff)
    (h : Inv c A f q m₀ ⟨s, .collect r n done stage⟩)
    (htime : OnTime c f ⟨s, .collect r n done stage⟩ (.voter sched))
    (hm : m' ∈ main c ⟨s, .collect r n done stage⟩ sched) : Inv c A f q m₀ m' := by
  obtain ⟨hr, hdone, hpolling, hextOut, hlog⟩ := h
  have hend : ∀ {s' : State}, Polling c A f q (r + 1) n false [] s' →
      s'.extOut = s.extOut → s'.log = s.log → Inv c A f q m₀ (endTurn c s' r n sched) := by
    intro s' hpolling' hextOut' hlog'
    have hsteady := steady_setPriority s' r (c.voterPriority - 4) sched
    exact ⟨hr, hpolling'.congr hsteady (channels_setPriority s' r _ sched),
      hsteady.extOut.trans (hextOut'.trans hextOut), hsteady.log.trans (hlog'.trans hlog)⟩
  have hundone : (∀ todo, stage ≠ .scan todo) → done = false := by
    intro hscan
    by_contra htrue
    obtain ⟨todo, hstage⟩ := hdone (by simpa using htrue)
    exact hscan todo hstage
  cases stage with
  | check =>
    obtain rfl := hundone (by simp)
    simp only [main] at hm
    split at hm
    · rename_i hexpired
      obtain rfl : r = f := by
        by_contra hne
        exact htime r rfl hne hexpired
      obtain rfl := Option.some.inj hm
      exact hend hpolling.timeout rfl rfl
    · obtain rfl := Option.some.inj hm
      exact ⟨hr, fun hdone => Bool.noConfusion hdone, hpolling, hextOut, hlog⟩
  | waiting =>
    obtain rfl := hundone (by simp)
    obtain rfl := Option.some.inj hm
    exact ⟨hr, fun hdone => Bool.noConfusion hdone, hpolling.select hq, hextOut, hlog⟩
  | scan todo =>
    rcases todo with _ | ⟨⟨x, p⟩, todo⟩
    · simp only [main] at hm
      split at hm
      · rename_i htrue
        obtain rfl : done = true := htrue
        obtain rfl := Option.some.inj hm
        exact hend hpolling.endTurn rfl rfl
      · rename_i hfalse
        obtain rfl : done = false := by simpa using hfalse
        obtain rfl := Option.some.inj hm
        exact ⟨hr, fun hdone => Bool.noConfusion hdone, hpolling, hextOut, hlog⟩
    · have hawaited : c.timerStopIndex s.activePipeIndex = q := hpolling.awaited
      simp only [main, hawaited] at hm
      split at hm
      · simp at hm
      · rename_i hne
        have hread := hpolling.read hr hA hne
        split at hm
        · rename_i hpq
          obtain rfl := Option.some.inj hm
          rw [if_pos hpq, decide_eq_true hpq, Bool.or_true] at hread
          exact ⟨hr, fun _ => ⟨todo, rfl⟩, hread, hextOut, hlog⟩
        · rename_i hpq
          obtain rfl := Option.some.inj hm
          rw [if_neg hpq, decide_eq_false hpq, Bool.or_false] at hread
          exact ⟨hr, fun _ => ⟨todo, rfl⟩, hread, hextOut, hlog⟩

/-- **One step of the round.** -/
theorem inv_step {a : Act} (hthree : c.repCount = 3) (hf : f < 3) (hq : q < c.outPipeCount)
    (hA : ∀ p < c.outPipeCount, (A p).length ≤ maxPipeBuff) (h : Inv c A f q m₀ m)
    (hanswers : Answers c A q {r | r ≠ f} m.toState a) (hround : InRound m a)
    (htime : OnTime c f m a) (hm : m' ∈ step c m a) : Inv c A f q m₀ m' := by
  cases a with
  | voter sched =>
    rcases m with ⟨s, point⟩
    cases point with
    | receive => exact absurd rfl hround
    | received => exact h.elim
    | retry => exact h.elim
    | turn r n => exact inv_turn hthree hf h hm
    | collect r n done stage => exact inv_collect hq hA h htime hm
  | replicaWrites | replicaReads | externalWrites | tick =>
    simp only [step, Option.mem_def, Option.map_eq_some_iff] at hm
    obtain ⟨s, hs, rfl⟩ := hm
    exact inv_other h hanswers (environment_cases hs)

/-- **Masking on a single core.** In every timed round in TMR in which all replicas but `f`
answer with `A`, in time, nothing is sent before the round is closed, then exactly `A` on
every pipe, and no replica but `f` was killed. -/
theorem single_masked (hthree : c.repCount = 3) (hf : f < 3) (hq : q < c.outPipeCount)
    (hA : ∀ p < c.outPipeCount, (A p).length ≤ maxPipeBuff) (hstart : RoundStart c f q m₀)
    (hreach : Reaches (step c) (fun m a => Answers c A q {r | r ≠ f} m.toState a ∧ InRound m a ∧
      OnTime c f m a) m₀ m) :
    (∀ p < c.outPipeCount,
      m.extOut p = if m.point = .receive then m₀.extOut p ++ A p else m₀.extOut p) ∧
    ∃ l, m.log = l ++ m₀.log ∧ ∀ r, .killed r ∈ l → r = f := by
  have h := hreach.invariant (I := Inv c A f q m₀) (inv_start hq hstart)
    fun m a m' hm hok hm' => inv_step hthree hf hq hA hm hok.1 hok.2.1 hok.2.2 hm'
  rcases m with ⟨s, point⟩
  cases point with
  | receive => exact ⟨fun p hp => (h.extOut p hp).trans (if_pos rfl).symm, h.log⟩
  | turn => exact ⟨fun p _ => congrFun h.2.2.1 p, [], h.2.2.2, by simp⟩
  | collect => exact ⟨fun p _ => congrFun h.2.2.2.1 p, [], h.2.2.2.2, by simp⟩
  | received => exact h.elim
  | retry => exact h.elim

/-! ### Rounds with a faulty replica -/

/-- TMR with one timed input and one timed output. -/
def rangerConfig : Config :=
  parseArgs "TMR" 1000 25 [⟨"RANGE_POSE_DATA", 3, 0, 1⟩, ⟨"MOV_CMD", 0, 4, 1⟩]

/-- Input has come in. -/
def rangerRound : Machine :=
  follow (step rangerConfig) [.externalWrites 0 [1], .voter true, .voter true] (start rangerConfig)

theorem roundStart_ranger (f : ℕ) : RoundStart rangerConfig f 0 rangerRound where
  point := by decide +kernel
  waits := by decide +kernel
  awaited := by decide +kernel
  counts := by decide +kernel
  queue r hr _ := by
    have h : ∀ r < rangerConfig.repCount, ∀ p < rangerConfig.outPipeCount,
        rangerRound.outQueue r p = [] := by decide +kernel
    exact h r hr
  wrote r hr _ := by
    have h : ∀ r < rangerConfig.repCount, ∀ p < rangerConfig.outPipeCount,
        (rangerRound.procs r).wrote p = [] := by decide +kernel
    exact h r hr

/-- The turn of a replica that answers with one write. -/
def answerTurn (r : ℕ) (bytes : List UInt8) : List Act :=
  [Act.voter true, .replicaWrites r 0 bytes] ++ List.replicate 4 (Act.voter true)

/-- Replica 0 writes a wrong byte. -/
theorem single_masked_wrongByte : (follow (step rangerConfig) (answerTurn 0 [88] ++
    answerTurn 1 [65] ++ answerTurn 2 [65] ++ [Act.voter true]) rangerRound).extOut 0 = [65] := by
  have hreach : Reaches (step rangerConfig) (fun m a =>
      Answers rangerConfig (fun _ => [65]) 0 {r | r ≠ 0} m.toState a ∧ InRound m a ∧
        OnTime rangerConfig 0 m a) rangerRound (follow (step rangerConfig) (answerTurn 0 [88] ++
      answerTurn 1 [65] ++ answerTurn 2 [65] ++ [Act.voter true]) rangerRound) :=
    reaches_follow (by decide +kernel) (by decide +kernel)
  have hmasked := (single_masked (by decide +kernel) (by decide) (by decide +kernel)
    (by decide +kernel) (roundStart_ranger 0) hreach).1 0 (by decide +kernel)
  rw [hmasked, if_pos (by decide +kernel)]
  decide +kernel

/-- All replicas but `f` write before the time is up. -/
def Timely (c : Config) (f : ℕ) (m : Machine) : Act → Prop
  | .replicaWrites r _ _ => r ≠ f → ¬ Expired c m.toState
  | _ => True

instance (c : Config) (f : ℕ) (m : Machine) : ∀ a, Decidable (Timely c f m a)
  | .replicaWrites r _ _ => inferInstanceAs (Decidable (r ≠ f → ¬ Expired c m.toState))
  | .voter _ | .replicaReads _ _ _ | .externalWrites _ _ | .tick _ =>
    inferInstanceAs (Decidable True)

/-- All replicas but `f` answer with `A`, in time. -/
def Lawful (A : ℕ → List UInt8) (f : ℕ) (m : Machine) (a : Act) : Prop :=
  Answers rangerConfig A 0 {r | r ≠ f} m.toState a ∧ InRound m a ∧ Timely rangerConfig f m a

instance (A : ℕ → List UInt8) (f : ℕ) (m : Machine) (a : Act) : Decidable (Lawful A f m a) :=
  inferInstanceAs (Decidable (_ ∧ _ ∧ _))

/-- One byte more than the buffer holds. -/
def longAnswer (_ : ℕ) : List UInt8 := List.replicate 4097 65

/-- Replica `r` writes the long answer, the voter reads it and turns to the next replica. -/
def longTurn (r : ℕ) (m : Machine) : Machine :=
  follow (step rangerConfig) (.replicaWrites r 0 (longAnswer 0) :: List.replicate 5 (.voter true)) m

theorem reaches_longTurn {r : ℕ} (hwrote : (m.procs r).wrote 0 = [])
    (htime : ¬ Expired rangerConfig m.toState)
    (hvoter : ∀ t ∈ step rangerConfig m (.replicaWrites r 0 (longAnswer 0)),
      AllSteps (step rangerConfig) (Lawful longAnswer 0) (List.replicate 5 (.voter true)) t)
    (hrun : (run (step rangerConfig)
      (.replicaWrites r 0 (longAnswer 0) :: List.replicate 5 (.voter true)) m).isSome) :
    Reaches (step rangerConfig) (Lawful longAnswer 0) m (longTurn r m) := by
  refine reaches_follow ⟨⟨fun _ => ⟨hwrote, hwrote, rfl, fun _ p hp hne => absurd ?_ hne⟩, trivial,
    fun _ => htime⟩, hvoter⟩ hrun
  have hcount : rangerConfig.outPipeCount = 1 := by decide +kernel
  rw [mem_outs, hcount] at hp
  omega

/-- Replica 0 writes one byte, the others the long answer. -/
def longRound : Machine :=
  longTurn 2 (longTurn 1
    (follow (step rangerConfig) (answerTurn 0 [7] ++ [Act.voter true]) rangerRound))

/-- Replica 0 answers at once, but the voter looks at the clock too late. -/
def lateCheck : List Act :=
  [Act.voter true, .replicaWrites 0 0 [65], .tick 2302000, .voter true] ++ answerTurn 1 [65] ++
    answerTurn 2 [65] ++ [Act.voter true]

/-- An answer that does not fit into the buffer is cut off; and replica 0 is killed, although
it answered in time. -/
theorem single_not_masked :
    (RoundStart rangerConfig 0 0 rangerRound ∧ ∃ m,
      Reaches (step rangerConfig) (Lawful longAnswer 0) rangerRound m ∧
      m.point = .receive ∧ (m.extOut 0).length ≠ (longAnswer 0).length) ∧
    (RoundStart rangerConfig 2 0 rangerRound ∧ ∃ m,
      Reaches (step rangerConfig) (Lawful (fun _ => [65]) 2) rangerRound m ∧
      m.point = .receive ∧ .killed 0 ∈ m.log) := by
  constructor
  · refine ⟨roundStart_ranger 0, longRound, ?_, by decide +kernel, by decide +kernel⟩
    have hfirst : Reaches (step rangerConfig) (Lawful longAnswer 0) rangerRound
        (follow (step rangerConfig) (answerTurn 0 [7] ++ [Act.voter true]) rangerRound) :=
      reaches_follow (by decide +kernel) (by decide +kernel)
    have hsecond := hfirst.trans (reaches_longTurn (r := 1) (by decide +kernel) (by decide +kernel)
      (by decide +kernel) (by decide +kernel))
    exact hsecond.trans (reaches_longTurn (by decide +kernel) (by decide +kernel)
      (by decide +kernel) (by decide +kernel))
  · exact ⟨roundStart_ranger 2, follow (step rangerConfig) lateCheck rangerRound,
      reaches_follow (by decide +kernel) (by decide +kernel), by decide +kernel,
      by decide +kernel⟩

end S3RES.VoterM.SingleCore
