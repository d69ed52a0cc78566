import S3RES.VoterM.Pairing
import S3RES.VoterM.QuadRound

/-!
# Runs without faults, on several cores

All replicas answer the `i`-th input with `S i`, the write on the paired out pipe last, and no
collection times out (`Faultless`). `quad_transparent`: after every round exactly these
answers have been sent, once each, and nothing is left in the pipes; nobody is ever blamed;
and a round in which all replicas have answered is brought to its end by the voter alone.
-/

namespace S3RES.VoterM.QuadCore

open Delivery StepSystem Finset

variable {args : List PipeArg} {S : ℕ → ℕ → List UInt8} {c : Config} {m m' m₀ : Machine}
  {s t : State} {A : ℕ → List UInt8} {k : Collect} {p q r : ℕ}

/-- How many inputs were read. -/
def inputsRead (log : List Event) : ℕ := log.countP Event.isReceived

/-- What is sent on out pipe `p` when all inputs in the log are answered: `S i` is the answer
to the `i`-th of them, if it is timed. -/
def expected (args : List PipeArg) (S : ℕ → ℕ → List UInt8) : List Event → ℕ → List UInt8
  | [], _ => []
  | .received a :: log, p =>
    if timedIndex args a = 0 then expected args S log p
    else expected args S log p ++ S (inputsRead log + 1) p
  | _ :: log, p => expected args S log p

/-- The external in pipe that is read next. -/
def Machine.reading (m : Machine) : Option ℕ :=
  match m.point with
  | .received (a :: _) => some a
  | _ => none

/-- A step of a run without faults: a timed input sits at the position its index names, and has
a pair; the collection does not time out; and the replicas answer. -/
def Faultless (args : List PipeArg) (S : ℕ → ℕ → List UInt8) (c : Config) (m : Machine) :
    Act → Prop
  | .voter _ =>
    (∀ a ∈ m.reading, timedIndex args a ≠ 0 →
      timedIndex args a = a + 1 ∧ ∃ q < c.outPipeCount, Paired args a q) ∧
    ∀ k ∈ m.collecting, k.stage = .check → ¬ Expired c m.toState
  | .replicaWrites r p bytes =>
    (m.point = .send ∨ m.collecting.isSome) ∧ ∃ q < c.outPipeCount,
      Paired args m.activePipeIndex q ∧
        Turn c.outs (S (inputsRead m.log)) q (m.channels r) p bytes
  | _ => True

instance (args : List PipeArg) (S : ℕ → ℕ → List UInt8) (c : Config) (m : Machine) :
    ∀ a, Decidable (Faultless args S c m a)
  | .voter _ => inferInstanceAs (Decidable ((∀ a ∈ m.reading, _ → _ ∧ ∃ q < c.outPipeCount, _) ∧
      ∀ k ∈ m.collecting, _ → _))
  | .replicaWrites _ _ _ => inferInstanceAs (Decidable (_ ∧ ∃ q < c.outPipeCount, _ ∧ _))
  | .replicaReads _ _ _ | .externalWrites _ _ | .tick _ => inferInstanceAs (Decidable True)

/-- Nothing is held and nothing is unread. -/
def Clean (c : Config) (s : State) : Prop :=
  ∀ r < c.repCount, ∀ p < c.outPipeCount, (s.replicas r).buffCounts p = 0 ∧ s.outQueue r p = []

instance (c : Config) (s : State) : Decidable (Clean c s) :=
  inferInstanceAs (Decidable (∀ r < c.repCount, ∀ p < c.outPipeCount, _))

/-- An input was read, and all before it are answered. -/
def Opened (args : List PipeArg) (S : ℕ → ℕ → List UInt8) (c : Config) (s : State) : Prop :=
  s.log = .received s.activePipeIndex :: s.log.tail ∧
    ∀ p < c.outPipeCount, s.extOut p = expected args S s.log.tail p

/-- The active input is timed, at its place, and paired with `q`. -/
structure Active (args : List PipeArg) (s : State) (q : ℕ) : Prop where
  place : timedIndex args s.activePipeIndex = s.activePipeIndex + 1
  pair : Paired args s.activePipeIndex q

/-- The invariant of the runs. -/
def RunInv (args : List PipeArg) (S : ℕ → ℕ → List UInt8) (c : Config) (m : Machine) : Prop :=
  (∀ r, .killed r ∉ m.log) ∧
  match m.point with
  | .receive | .received _ =>
    Clean c m.toState ∧ ∀ p < c.outPipeCount, m.extOut p = expected args S m.log p
  | .send => Opened args S c m.toState ∧
    (timedIndex args m.activePipeIndex = 0 ∧ Clean c m.toState ∨ ∃ q, Active args m.toState q ∧
      Ready c (S (inputsRead m.log)) q Set.univ m.toState)
  | .collect k => Opened args S c m.toState ∧ ∃ q, Active args m.toState q ∧
    Gathering c (S (inputsRead m.log)) q Set.univ k m.toState
  | .retry _ => False

theorem Clean.congr (h : Clean c s) (hheld : t.held = s.held)
    (hqueue : ∀ r < c.repCount, ∀ p < c.outPipeCount, t.outQueue r p = s.outQueue r p) :
    Clean c t := by
  intro r hr p hp
  rw [hqueue r hr p hp, buffCounts_eq_zero_iff, hheld, ← buffCounts_eq_zero_iff]
  exact h r hr p hp

theorem Opened.congr (h : Opened args S c s) (hsteady : Steady s t) : Opened args S c t := by
  refine ⟨?_, fun p hp => ?_⟩
  · rw [hsteady.log, hsteady.activePipeIndex]
    exact h.1
  · rw [hsteady.extOut, hsteady.log]
    exact h.2 p hp

theorem Active.congr (h : Active args s q) (hsteady : Steady s t) : Active args t q := by
  refine ⟨?_, ?_⟩
  · rw [hsteady.activePipeIndex]
    exact h.place
  · rw [hsteady.activePipeIndex]
    exact h.pair

/-- The pair of the active input is the awaited pipe. -/
theorem Active.awaited (h : Active args s q) (hc : c.toPipes = parsePipes args)
    (hargs : WellNumbered args) : c.timerStopIndex s.activePipeIndex = q := by
  rw [hc]
  exact timerStopIndex_of_paired hargs h.pair h.place

theorem Active.lt (h : Active args s q) (hc : c.toPipes = parsePipes args) :
    q < c.outPipeCount := by
  rw [hc]
  exact lt_outPipeCount_of_paired h.pair

/-- In a round, what the replicas may write is the next part of their answers. -/
theorem Faultless.answers {a : Act} (h : Faultless args S c m a) (hactive : Active args m.toState q)
    (hargs : WellNumbered args) (ha : ∀ sched, a ≠ .voter sched) :
    Answers c (S (inputsRead m.log)) q Set.univ m.toState a := by
  cases a with
  | voter sched => exact absurd rfl (ha sched)
  | replicaWrites r p bytes =>
    obtain ⟨-, q', -, hpair, hturn⟩ := h
    have hq : q' = q :=
      (timerStopIndex_of_paired hargs hpair hactive.place).symm.trans
        (timerStopIndex_of_paired hargs hactive.pair hactive.place)
    exact fun _ => hq ▸ hturn
  | replicaReads => trivial
  | externalWrites => trivial
  | tick => trivial

/-- The others act. -/
theorem runInv_other {a : Act} (hargs : WellNumbered args) (h : RunInv args S c m)
    (hok : Faultless args S c m a) (ha : ∀ sched, a ≠ .voter sched)
    (hs : OtherCase c m.toState a s) : RunInv args S c { m with toState := s } := by
  obtain ⟨hkilled, h⟩ := h
  have hsteady := hs.steady
  refine ⟨fun r => by rw [show s.log = m.log from hsteady.log]; exact hkilled r, ?_⟩
  -- outside of a round nobody writes
  have hquiet : (m.point ≠ .send ∧ m.collecting = none ∨ timedIndex args m.activePipeIndex = 0) →
      s.channels = m.channels := by
    intro hout
    cases hs with
    | write =>
      obtain ⟨hin, q, -, hpair, -⟩ := hok
      rcases hout with ⟨hsend, hnone⟩ | huntimed
      · exact absurd hin (by simp [hsend, hnone])
      · exact absurd huntimed hpair.1
    | quiet hchannels => exact hchannels
  have hclean : Clean c m.toState → s.channels = m.channels → Clean c s := fun hclean hsame =>
    hclean.congr hs.held fun r _ p _ =>
      congrFun (congrArg Channels.queue (congrFun hsame r)) p
  have hidle : m.collecting = none → m.point ≠ .send → Clean c m.toState ∧
      (∀ p < c.outPipeCount, m.extOut p = expected args S m.log p) →
      Clean c s ∧ ∀ p < c.outPipeCount, s.extOut p = expected args S s.log p := by
    rintro hnone hsend ⟨hclean', hout⟩
    refine ⟨hclean hclean' (hquiet (.inl ⟨hsend, hnone⟩)), fun p hp => ?_⟩
    rw [hsteady.extOut, hsteady.log]
    exact hout p hp
  rcases m with ⟨s₁, point⟩
  cases point with
  | receive => exact hidle rfl (by simp) h
  | received => exact hidle rfl (by simp) h
  | send =>
    obtain ⟨hopened, hround⟩ := h
    refine ⟨hopened.congr hsteady, ?_⟩
    rcases hround with ⟨huntimed, hclean'⟩ | ⟨q, hactive, hready⟩
    · refine .inl ⟨?_, hclean hclean' (hquiet (.inr huntimed))⟩
      rw [show s.activePipeIndex = s₁.activePipeIndex from hsteady.activePipeIndex]
      exact huntimed
    · refine .inr ⟨q, hactive.congr hsteady, ?_⟩
      rw [show s.log = s₁.log from hsteady.log]
      exact hready.other (hok.answers hactive hargs ha) hs
  | collect k =>
    obtain ⟨hopened, q, hactive, hgathering⟩ := h
    refine ⟨hopened.congr hsteady, q, hactive.congr hsteady, ?_⟩
    rw [show s.log = s₁.log from hsteady.log]
    exact hgathering.other (hok.answers hactive hargs ha) hs
  | retry => exact h

/-- A round ends: the answers are sent and everything is empty. -/
theorem runInv_vote (hpos : 0 < c.repCount) (hkilled : ∀ r, .killed r ∉ s.log)
    (hopened : Opened args S c s) (hactive : Active args s q)
    (hgathering : Gathering c (S (inputsRead s.log)) q Set.univ k s)
    (hstage : k.stage = .scan []) (hdone : k.done = true) :
    (checkSDC c s).1 = false ∧ RunInv args S c { toState := vote c s, point := .receive } := by
  have hholds : ∀ r < c.repCount, _ := fun r hr =>
    hgathering.holds hstage hdone hr (Set.mem_univ r)
  obtain ⟨hclosed, hcheck, hqueue, -, hlog⟩ := unanimous_vote hpos fun r hr => (hholds r hr).1
  refine ⟨hcheck, fun r => ?_, fun r hr p hp => ⟨?_, ?_⟩, fun p hp => ?_⟩
  · rw [hlog, List.mem_cons, not_or]
    exact ⟨nofun, hkilled r⟩
  · exact buffCounts_eq_zero_iff.mpr (hclosed.held r hr p hp)
  · rw [hqueue]
    exact (hholds r hr).2 p hp
  · have htimed : timedIndex args s.activePipeIndex ≠ 0 := hactive.pair.1
    have hcount : inputsRead s.log = inputsRead s.log.tail + 1 :=
      (congrArg inputsRead hopened.1).trans (List.countP_cons_of_pos rfl)
    have hexpected : expected args S s.log p =
        expected args S s.log.tail p ++ S (inputsRead s.log.tail + 1) p :=
      (congrArg (expected args S · p) hopened.1).trans (if_neg htimed)
    rw [hclosed.extOut p hp, hopened.2 p hp, hcount, hlog]
    exact hexpected.symm

/-- An input is read. -/
theorem runInv_recv {a : ℕ} (hc : c.toPipes = parsePipes args) (hargs : WellNumbered args)
    (hkilled : ∀ r, .killed r ∉ s.log) (hclean : Clean c s)
    (hout : ∀ p < c.outPipeCount, s.extOut p = expected args S s.log p)
    (hplace : timedIndex args a ≠ 0 →
      timedIndex args a = a + 1 ∧ ∃ q < c.outPipeCount, Paired args a q) :
    RunInv args S c { toState := recvData s a, point := .send } := by
  refine ⟨fun r => ?_, ⟨rfl, hout⟩, ?_⟩
  · rw [show (recvData s a).log = .received a :: s.log from rfl, List.mem_cons, not_or]
    exact ⟨by simp, hkilled r⟩
  · by_cases htimed : timedIndex args a = 0
    · exact .inl ⟨htimed, hclean⟩
    · obtain ⟨hplace, q, hq, hpair⟩ := hplace htimed
      have hactive : Active args (recvData s a) q := ⟨hplace, hpair⟩
      refine .inr ⟨q, hactive, ?_, hactive.awaited hc hargs, fun r hr _ => ?_,
        fun r hr p hp => buffCounts_eq_zero_iff.mp (hclean r hr p hp).1⟩
      · exact (checkWaitOnInput_iff hc hargs fun _ => hplace).mpr htimed
      · exact sound_start (fun p hp => buffCounts_eq_zero_iff.mp (hclean r hr p hp).1)
          (fun p hp => (hclean r hr p hp).2) (fun _ _ => rfl) hq

/-- The input is delivered; a timed one is waited for. -/
theorem runInv_send {sched : Bool} (hc : c.toPipes = parsePipes args) (hpos : 0 < c.repCount)
    (hargs : WellNumbered args) (h : RunInv args S c { toState := s, point := .send })
    (hm : m' ∈ step c { toState := s, point := .send } (.voter sched)) : RunInv args S c m' := by
  obtain ⟨hkilled, hopened, hround⟩ := h
  obtain ⟨inQueue, heq⟩ := sendToReps_eq c s
  simp only [step, main] at hm
  rcases hround with ⟨huntimed, hclean⟩ | ⟨q, hactive, hready⟩
  · -- an untimed input is not waited for
    have hnot : checkWaitOnInput c s = false := by
      rw [← Bool.not_eq_true,
        checkWaitOnInput_iff hc hargs fun htimed => absurd huntimed htimed]
      exact not_not.mpr huntimed
    have hwaits : checkWaitOnInput c (sendToReps c s) = false :=
      (checkWaitOnInput_congr (by rw [heq])).trans hnot
    simp only [hwaits, Bool.false_eq_true, if_false, Option.mem_def, Option.some.injEq] at hm
    subst hm
    rw [heq]
    refine ⟨hkilled, hclean, fun p hp => (hopened.2 p hp).trans ?_⟩
    rw [show ({ s with inQueue := inQueue } : State).log = s.log from rfl, hopened.1]
    simp [expected, huntimed]
  · have hwaits : checkWaitOnInput c (sendToReps c s) = true :=
      (checkWaitOnInput_congr (by rw [heq])).trans hready.waits
    simp only [hwaits, if_true, Option.mem_def, Option.some.injEq] at hm
    subst hm
    have hgathering := hready.gathering hpos (hactive.lt hc)
    rw [heq] at hgathering ⊢
    exact ⟨hkilled, hopened, q, ⟨hactive.place, hactive.pair⟩, hgathering⟩

/-- The answers are collected. -/
theorem runInv_collect {sched : Bool} (hc : c.toPipes = parsePipes args) (hpos : 0 < c.repCount)
    (hS : ∀ i, ∀ p < c.outPipeCount, (S i p).length ≤ maxPipeBuff)
    (h : RunInv args S c { toState := s, point := .collect k })
    (htime : k.stage = .check → ¬ Expired c s)
    (hm : m' ∈ step c { toState := s, point := .collect k } (.voter sched)) :
    RunInv args S c m' := by
  obtain ⟨hkilled, hopened, q, hactive, hgathering⟩ := h
  simp only [step, main] at hm
  split at hm
  · rename_i k' s' hcollect
    obtain rfl := Option.some.inj hm
    obtain ⟨hgathering', hsteady⟩ :=
      hgathering.step (hactive.lt hc) (hS _) hgathering.unrepeated hcollect
    refine ⟨fun r => ?_, hopened.congr hsteady, q, hactive.congr hsteady, ?_⟩
    · rw [show s'.log = s.log from hsteady.log]
      exact hkilled r
    · rw [show s'.log = s.log from hsteady.log]
      exact hgathering'
  · rename_i s' hcollect
    obtain rfl := Option.some.inj hm
    cases left_of_collectFromReps hcollect with
    | timeout hstage hexpired => exact absurd hexpired (htime hstage)
    | full hstage hdone =>
      have htime : s.timeoutOccurred = false := hgathering.inTime
      simp only [afterCollect, htime, Bool.false_eq_true, if_false]
      exact (runInv_vote hpos hkilled hopened hactive hgathering hstage hdone).2
  · simp at hm

/-- **One step of a run without faults.** -/
theorem runInv_step {a : Act} (hc : c.toPipes = parsePipes args) (hpos : 0 < c.repCount)
    (hargs : WellNumbered args) (hS : ∀ i, ∀ p < c.outPipeCount, (S i p).length ≤ maxPipeBuff)
    (h : RunInv args S c m) (hok : Faultless args S c m a) (hm : m' ∈ step c m a) :
    RunInv args S c m' := by
  cases a with
  | voter sched =>
    rcases m with ⟨s, point⟩
    cases point with
    | receive =>
      obtain rfl := Option.some.inj hm
      refine ⟨h.1, ?_⟩
      by_cases hnone : readyIn c s = []
      · simpa only [hnone, if_true] using h.2
      · simpa only [hnone, if_false] using h.2
    | received ready =>
      rcases ready with _ | ⟨a, ready⟩
      · obtain rfl := Option.some.inj hm
        exact h
      · obtain rfl := Option.some.inj hm
        exact runInv_recv hc hargs h.1 h.2.1 h.2.2 (hok.1 a rfl)
    | send => exact runInv_send hc hpos hargs h hm
    | collect k => exact runInv_collect hc hpos hS h (hok.2 k rfl) hm
    | retry => exact h.2.elim
  | replicaWrites | replicaReads | externalWrites | tick =>
    simp only [step, Option.mem_def, Option.map_eq_some_iff] at hm
    obtain ⟨s, hs, rfl⟩ := hm
    exact runInv_other hargs h hok (by simp) (environment_cases hs)

/-! ### The end of a round -/

/-- **The round ends.** When all have answered in time, the voter ends the round by itself. -/
theorem exists_run_receive (hq : q < c.outPipeCount)
    (hA : ∀ p < c.outPipeCount, (A p).length ≤ maxPipeBuff) (h : Gathering c A q Set.univ k s)
    (hall : AllAnswered c s q) (htime : ¬ Expired c s) : ∃ n m',
      run (step c) (List.replicate n (.voter true)) { toState := s, point := .collect k } =
          some m' ∧
        m'.point = .receive := by
  induction hmeasure : 4 * unread c s + rank k.stage using Nat.strong_induction_on
    generalizing k s with
  | _ n ih =>
    subst hmeasure
    rcases h.advance hq hA hall htime with hleft | ⟨k', t, hcollect, hless, hall', htime'⟩
    · have hmain : step c { toState := s, point := .collect k } (.voter true) =
          some (afterCollect c s) := by
        simp only [step, main, Option.mem_def.mp hleft]
      refine ⟨1, afterCollect c s, by simp [hmain], ?_⟩
      simp [afterCollect, h.inTime]
    · have hmain : step c { toState := s, point := .collect k } (.voter true) =
          some { toState := t, point := .collect k' } := by
        simp only [step, main, Option.mem_def.mp hcollect]
      have hgathering := (h.step hq hA h.unrepeated hcollect).1
      obtain ⟨n, m', hrun, hpoint⟩ := ih _ hless hgathering hall' htime' rfl
      exact ⟨n + 1, m', by simpa [List.replicate_succ, hmain] using hrun, hpoint⟩

/-! ### Runs without faults -/

/-- The start of a run: no counts, empty pipes, nothing sent. -/
structure Initial (c : Config) (m : Machine) : Prop where
  point : m.point = .receive
  clean : Clean c m.toState
  extOut : ∀ p < c.outPipeCount, m.extOut p = []
  log : m.log = []

/-- **Transparency.** In every run without faults: no replica is ever killed, and no fault is
found when a collection is complete; after every round nothing is left in the pipes, and what
was sent are the answers to all timed inputs so far; and a round in which all have answered
in time is ended by the voter alone. -/
theorem quad_transparent {type : String} {timeout priority : ℤ}
    (hc : c = parseArgs type timeout priority args) (hpos : 0 < c.repCount)
    (hargs : WellNumbered args) (hS : ∀ i, ∀ p < c.outPipeCount, (S i p).length ≤ maxPipeBuff)
    (hinit : Initial c m₀) (hreach : Reaches (step c) (Faultless args S c) m₀ m) :
    (∀ r, .killed r ∉ m.log) ∧
    (m.point = .receive →
      Clean c m.toState ∧ ∀ p < c.outPipeCount, m.extOut p = expected args S m.log p) ∧
    ∀ k, m.point = .collect k →
      (k.stage = .scan [] → k.done = true → (checkSDC c m.toState).1 = false) ∧
      (AllAnswered c m.toState (c.timerStopIndex m.activePipeIndex) → ¬ Expired c m.toState →
        ∃ n m', run (step c) (List.replicate n (.voter true)) m = some m' ∧
          m'.point = .receive) := by
  have hpipes : c.toPipes = parsePipes args := by rw [hc]; rfl
  have hstart : RunInv args S c m₀ := by
    refine ⟨fun r => by simp [hinit.log], ?_⟩
    simp only [hinit.point]
    exact ⟨hinit.clean, fun p hp => by rw [hinit.extOut p hp, hinit.log]; rfl⟩
  have h := hreach.invariant (I := RunInv args S c) hstart fun m a m' hm hok hm' =>
    runInv_step hpipes hpos hargs hS hm hok hm'
  refine ⟨h.1, fun hpoint => ?_, fun k hpoint => ?_⟩
  · have hidle := h.2
    simp only [hpoint] at hidle
    exact hidle
  · have hround := h.2
    simp only [hpoint] at hround
    obtain ⟨hopened, q, hactive, hgathering⟩ := hround
    refine ⟨fun hstage hdone => ?_, fun hall htime => ?_⟩
    · exact (runInv_vote hpos h.1 hopened hactive hgathering hstage hdone).1
    · rw [hactive.awaited hpipes hargs] at hall
      obtain ⟨n, m', hrun, hend⟩ :=
        exists_run_receive (hactive.lt hpipes) (hS _) hgathering hall htime
      refine ⟨n, m', ?_, hend⟩
      rcases m with ⟨s, point⟩
      obtain rfl : point = .collect k := hpoint
      exact hrun

/-- The pipes of `rangerConfig`. -/
def rangerArgs : List PipeArg := [⟨"RANGE_POSE_DATA", 3, 0, 1⟩, ⟨"MOV_CMD", 0, 4, 1⟩]

theorem initial_start : Initial rangerConfig (start rangerConfig) := by
  constructor <;> decide +kernel

/-- A round in which all replicas write the same byte. -/
def plainRound (byte : UInt8) : List Act :=
  [Act.externalWrites 0 [1]] ++ voterSteps 3 ++ [Act.replicaWrites 0 0 [byte],
    .replicaWrites 1 0 [byte], .replicaWrites 2 0 [byte]] ++ voterSteps 6

theorem quad_transparent_twoRounds : (follow (step rangerConfig) (plainRound 65 ++ plainRound 66)
    (start rangerConfig)).extOut 0 = [65, 66] := by
  have hreach : Reaches (step rangerConfig)
      (Faultless rangerArgs (fun i _ => if i = 1 then [65] else [66]) rangerConfig)
      (start rangerConfig)
      (follow (step rangerConfig) (plainRound 65 ++ plainRound 66) (start rangerConfig)) :=
    reaches_follow (by decide +kernel) (by decide +kernel)
  have htransparent := quad_transparent (c := rangerConfig) rfl (by decide +kernel)
    (by decide +kernel) (fun i p _ => by split <;> decide) initial_start hreach
  have hout := (htransparent.2.1 (by decide +kernel)).2 0 (by decide +kernel)
  exact hout.trans (by decide +kernel)

/-- SMR with an untimed input, and a pair of index 2. -/
def secondArgs : List PipeArg :=
  [⟨"WAY_REQ", 5, 0, 0⟩, ⟨"RANGE_POSE_DATA", 3, 0, 2⟩, ⟨"MOV_CMD", 0, 4, 2⟩]

def secondConfig : Config := parseArgs "SMR" 1000 25 secondArgs

/-- SMR with one timed pair. -/
def loneConfig : Config := parseArgs "SMR" 1000 25 rangerArgs

/-- An answer with one byte more than the buffer holds. -/
def longAnswer (_ _ : ℕ) : List UInt8 := List.replicate 4097 65

/-- Input has come in and is waited for. -/
def loneRound : Machine :=
  follow (step loneConfig) ([Act.externalWrites 0 [1]] ++ voterSteps 3) (start loneConfig)

/-- The replica answers with more than the buffer holds. -/
def longRun : List Act := .replicaWrites 0 0 (longAnswer 1 0) :: voterSteps 4

/-- The only timed input has index 2 and is not waited for: its answer stays in the pipe. And
an answer that does not fit into the buffer is cut off, and its end stays in the pipe. -/
theorem quad_not_transparent :
    (timedIndex secondArgs 1 = 2 ∧ Paired secondArgs 1 0 ∧
      Initial secondConfig (start secondConfig) ∧
      ∃ m, Reaches (step secondConfig) (fun _ _ => True) (start secondConfig) m ∧
        m.log = [.received 1] ∧ m.point = .receive ∧ (m.procs 0).wrote 0 = [65] ∧
        m.outQueue 0 0 = [65] ∧ m.extOut 0 = []) ∧
    (Initial loneConfig (start loneConfig) ∧ ∃ m,
      Reaches (step loneConfig) (Faultless rangerArgs longAnswer loneConfig) (start loneConfig) m ∧
        m.point = .receive ∧ (m.extOut 0).length = 4096 ∧ (m.outQueue 0 0).length = 1) := by
  constructor
  · refine ⟨by decide +kernel, by decide +kernel, by constructor <;> decide +kernel,
      follow (step secondConfig) ([Act.externalWrites 1 [1]] ++ voterSteps 3 ++
        [Act.replicaWrites 0 0 [65]]) (start secondConfig),
      reaches_follow (allSteps_true _ _) (by decide +kernel), by decide +kernel, by decide +kernel,
      by decide +kernel, by decide +kernel, by decide +kernel⟩
  · have hfirst : Reaches (step loneConfig) (Faultless rangerArgs longAnswer loneConfig)
        (start loneConfig) loneRound :=
      reaches_follow (by decide +kernel) (by decide +kernel)
    have hwrote : (loneRound.procs 0).wrote 0 = [] := by decide +kernel
    have hcount : loneConfig.outPipeCount = 1 := by decide +kernel
    have hturn : Turn loneConfig.outs (longAnswer (inputsRead loneRound.log)) 0
        (loneRound.channels 0) 0 (longAnswer 1 0) := by
      refine ⟨hwrote, hwrote, rfl, fun _ p hp hne => absurd ?_ hne⟩
      rw [mem_outs, hcount] at hp
      omega
    have hlong : Reaches (step loneConfig) (Faultless rangerArgs longAnswer loneConfig) loneRound
        (follow (step loneConfig) longRun loneRound) :=
      reaches_follow ⟨⟨by decide +kernel, 0, by decide +kernel, by decide +kernel, hturn⟩,
        by decide +kernel⟩ (by decide +kernel)
    exact ⟨by constructor <;> decide +kernel, _, hfirst.trans hlong, by decide +kernel,
      by decide +kernel, by decide +kernel⟩

end S3RES.VoterM.QuadCore
