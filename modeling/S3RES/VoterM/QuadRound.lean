import S3RES.VoterM.Gathering

/-!
# A timed round with a faulty replica, on several cores

TMR in the build for several cores. Two replicas answer an input with `A`, the write on the
awaited out pipe `q` last, and the third, `f`, writes what it likes. `quad_masked`: in every
`Decisive` run of the round what is sent is `A`, and nobody but `f` is killed. A run that is
not decisive can end otherwise (`quad_not_masked`): the count of `collectFromReps` is one of
reads, not of replicas.
-/

namespace S3RES.VoterM.QuadCore

open Delivery StepSystem

variable {c : Config} {m m' m₀ : Machine} {s t : State} {A : ℕ → List UInt8} {f q : ℕ}

/-- The start of a timed round: input was received, the replicas' pipes are empty and nothing
is held of them. -/
structure RoundStart (c : Config) (q : ℕ) (m : Machine) : Prop where
  point : m.point = .send
  waits : checkWaitOnInput c m.toState = true
  awaited : c.timerStopIndex m.activePipeIndex = q
  counts : ∀ r < c.repCount, ∀ p < c.outPipeCount, (m.replicas r).buffCounts p = 0
  queue : ∀ r < c.repCount, ∀ p < c.outPipeCount, m.outQueue r p = []
  wrote : ∀ r < c.repCount, ∀ p < c.outPipeCount, (m.procs r).wrote p = []

/-- All replicas but `f` were read completely. -/
def AllRead (c : Config) (A : ℕ → List UInt8) (f : ℕ) (s : State) : Prop :=
  ∀ r < c.repCount, r ≠ f → ∀ p < c.outPipeCount, (s.replicas r).buffCounts p = (A p).length

/-- Replica `f` has output on fewer pipes than the others, or on as many and `f` is the first. -/
def Behind (c : Config) (f : ℕ) (s : State) : Prop :=
  ∀ r < c.repCount, r ≠ f → repScore c s f < repScore c s r ∨ f = 0 ∧
    repScore c s f = repScore c s r

/-- The local variables of `collectFromReps`, while it is running. -/
def Machine.collecting (m : Machine) : Option Collect :=
  match m.point with
  | .collect k => some k
  | _ => none

/-- A step of the round that decides rightly: no replica is read twice on `q` before the count
is full, and when the time is up the others were read completely and `f` is behind. -/
def Decisive (c : Config) (A : ℕ → List UInt8) (f q : ℕ) (m : Machine) : Act → Prop
  | .voter _ =>
    ∀ k ∈ m.collecting, Unrepeated q k m.toState ∧ (k.stage = .check → Expired c m.toState →
      AllRead c A f m.toState ∧ Behind c f m.toState)
  | _ => True

/-- The voter does not go on to the next round. -/
def InRound (m : Machine) : Act → Prop
  | .voter _ => m.point ≠ .receive
  | _ => True

instance (c : Config) (A : ℕ → List UInt8) (f : ℕ) (s : State) : Decidable (AllRead c A f s) :=
  inferInstanceAs (Decidable (∀ r < c.repCount, _ → ∀ p < c.outPipeCount, _))

instance (c : Config) (f : ℕ) (s : State) : Decidable (Behind c f s) :=
  inferInstanceAs (Decidable (∀ r < c.repCount, _ → _))

instance (c : Config) (A : ℕ → List UInt8) (f q : ℕ) (m : Machine) :
    ∀ a, Decidable (Decisive c A f q m a)
  | .voter _ => inferInstanceAs (Decidable (∀ k ∈ m.collecting, _ ∧ _))
  | .replicaWrites _ _ _ | .replicaReads _ _ _ | .externalWrites _ _ | .tick _ =>
    inferInstanceAs (Decidable True)

instance (m : Machine) : ∀ a, Decidable (InRound m a)
  | .voter _ => inferInstanceAs (Decidable (_ ≠ _))
  | .replicaWrites _ _ _ | .replicaReads _ _ _ | .externalWrites _ _ | .tick _ =>
    inferInstanceAs (Decidable True)

/-- The invariant of the round. -/
def Inv (c : Config) (A : ℕ → List UInt8) (f q : ℕ) (m₀ m : Machine) : Prop :=
  match m.point with
  | .send => Ready c A q {r | r ≠ f} m.toState ∧ m.extOut = m₀.extOut ∧ m.log = m₀.log
  | .collect k => Gathering c A q {r | r ≠ f} k m.toState ∧ m.extOut = m₀.extOut ∧ m.log = m₀.log
  | .receive => Closed c A {f} m₀.toState m.toState
  | _ => False

theorem inv_start (hq : q < c.outPipeCount) (h : RoundStart c q m₀) : Inv c A f q m₀ m₀ := by
  have hheld : ∀ r < c.repCount, ∀ p < c.outPipeCount, m₀.held r p = [] :=
    fun r hr p hp => buffCounts_eq_zero_iff.mp (h.counts r hr p hp)
  simp only [Inv, h.point, and_true]
  refine ⟨h.waits, h.awaited, fun r hr _ => ?_, hheld⟩
  exact sound_start (hheld r hr) (h.queue r hr) (h.wrote r hr) hq

/-- What was read completely is held. -/
theorem AllRead.holds {k : Collect} (h : AllRead c A f s)
    (hgathering : Gathering c A q {r | r ≠ f} k s) :
    ∀ r < c.repCount, r ≠ f → Holds c A s r := by
  intro r hr hne p hp
  have hlength : (s.held r p).length = (A p).length := by simpa [State.held] using h r hr hne p hp
  by_cases hheld : s.held r p = []
  · rw [hheld] at hlength ⊢
    exact (List.length_eq_zero_iff.mp hlength.symm).symm
  · exact (hgathering.sound r hr hne).held_eq hp hheld

/-- The others act. -/
theorem inv_other {a : Act} (h : Inv c A f q m₀ m)
    (hanswers : Answers c A q {r | r ≠ f} m.toState a) (hs : OtherCase c m.toState a s) :
    Inv c A f q m₀ { m with toState := s } := by
  have hsteady := hs.steady
  rcases m with ⟨s₁, point⟩
  cases point with
  | send =>
    exact ⟨h.1.other hanswers hs, hsteady.extOut.trans h.2.1, hsteady.log.trans h.2.2⟩
  | collect k =>
    exact ⟨h.1.other hanswers hs, hsteady.extOut.trans h.2.1, hsteady.log.trans h.2.2⟩
  | receive =>
    refine ⟨fun p hp => ?_, fun r hr p hp => ?_, ?_⟩
    · exact (congrFun hsteady.extOut p).trans (h.extOut p hp)
    · exact (congrFun (congrFun hs.held r) p).trans (h.held r hr p hp)
    · obtain ⟨l, hlog, hmem⟩ := h.log
      exact ⟨l, hsteady.log.trans hlog, hmem⟩
  | received => exact h
  | retry => exact h

/-- The loop is left, by a full count or by the time-out, and the round is closed. -/
theorem closed_afterCollect {k : Collect} (hthree : c.repCount = 3) (hf : f < 3)
    (hgathering : Gathering c A q {r | r ≠ f} k s)
    (htimeout : k.stage = .check → Expired c s → AllRead c A f s ∧ Behind c f s)
    (hleft : collectFromReps c k s = some (none, t)) :
    (afterCollect c t).point = .receive ∧ Closed c A {f} s (afterCollect c t).toState := by
  cases left_of_collectFromReps hleft with
  | timeout hstage hexpired =>
    obtain ⟨hread, hbehind⟩ := htimeout hstage hexpired
    have hholds := hread.holds hgathering
    have hindex : (findFaultReplica c { s with timeoutOccurred := true }).faultIndex = f :=
      findFaultReplica_of_lt (by omega) hbehind
    have hcloses := closed_recover (s := findFaultReplica c
      { s with timeoutOccurred := true }) hthree hindex fun r hr hne => hholds r (by omega) hne
    simp only [afterCollect, if_true, hindex, hthree, OfNat.ofNat_ne_one, if_false, true_and]
    exact ⟨hcloses.extOut, hcloses.held, hcloses.log⟩
  | full hstage hdone =>
    have hholds : ∀ r < 3, r ≠ f → Holds c A s r := fun r hr hne =>
      (hgathering.holds hstage hdone (by omega) hne).1
    have htime : s.timeoutOccurred = false := hgathering.inTime
    simp only [afterCollect, htime, Bool.false_eq_true, if_false, true_and]
    exact majority_vote hthree hf hholds

/-- **One step of the round.** -/
theorem inv_step {a : Act} (hthree : c.repCount = 3) (hf : f < 3) (hq : q < c.outPipeCount)
    (hA : ∀ p < c.outPipeCount, (A p).length ≤ maxPipeBuff) (h : Inv c A f q m₀ m)
    (hanswers : Answers c A q {r | r ≠ f} m.toState a) (hround : InRound m a)
    (hdecisive : Decisive c A f q m a) (hm : m' ∈ step c m a) : Inv c A f q m₀ m' := by
  cases a with
  | voter sched =>
    rcases m with ⟨s, point⟩
    simp only [step, main] at hm
    cases point with
    | receive => exact absurd rfl hround
    | received => exact h.elim
    | retry => exact h.elim
    | send =>
      obtain ⟨hready, hextOut, hlog⟩ := h
      have hgathering := hready.gathering (by omega) hq
      obtain ⟨inQueue, heq⟩ := sendToReps_eq c s
      have hwaits : checkWaitOnInput c (sendToReps c s) = true :=
        (checkWaitOnInput_congr (by rw [heq])).trans hready.waits
      simp only [hwaits, if_true, Option.mem_def, Option.some.injEq] at hm
      subst hm
      refine ⟨hgathering, ?_, ?_⟩
      · exact Eq.trans (by rw [heq]; rfl) hextOut
      · exact Eq.trans (by rw [heq]; rfl) hlog
    | collect k =>
      obtain ⟨hgathering, hextOut, hlog⟩ := h
      obtain ⟨hunrepeated, htimeout⟩ := hdecisive k rfl
      dsimp only at hm
      split at hm
      · rename_i k' s' hcollect
        simp only [Option.mem_def, Option.some.injEq] at hm
        subst hm
        obtain ⟨hgathering', hsteady⟩ := hgathering.step hq hA hunrepeated hcollect
        exact ⟨hgathering', hsteady.extOut.trans hextOut, hsteady.log.trans hlog⟩
      · rename_i s' hcollect
        simp only [Option.mem_def, Option.some.injEq] at hm
        subst hm
        obtain ⟨hpoint, hclosed⟩ := closed_afterCollect hthree hf hgathering htimeout hcollect
        simp only [Inv, hpoint]
        refine ⟨fun p hp => ?_, hclosed.held, ?_⟩
        · rw [hclosed.extOut p hp]
          exact congrArg (· ++ A p) (congrFun hextOut p)
        · rw [← hlog]
          exact hclosed.log
      · simp at hm
  | replicaWrites | replicaReads | externalWrites | tick =>
    simp only [step, Option.mem_def, Option.map_eq_some_iff] at hm
    obtain ⟨s, hs, rfl⟩ := hm
    exact inv_other h hanswers (environment_cases hs)

/-- **Masking on several cores.** In every decisive run of a timed round in TMR in which all
replicas but `f` answer with `A`, nothing is sent before the round is closed, then exactly `A`
on every pipe, and no replica but `f` was killed. -/
theorem quad_masked (hthree : c.repCount = 3) (hf : f < 3) (hq : q < c.outPipeCount)
    (hA : ∀ p < c.outPipeCount, (A p).length ≤ maxPipeBuff) (hstart : RoundStart c q m₀)
    (hreach : Reaches (step c) (fun m a => Answers c A q {r | r ≠ f} m.toState a ∧ InRound m a ∧
      Decisive c A f q m a) m₀ m) :
    (∀ p < c.outPipeCount,
      m.extOut p = if m.point = .receive then m₀.extOut p ++ A p else m₀.extOut p) ∧
    ∃ l, m.log = l ++ m₀.log ∧ ∀ r, .killed r ∈ l → r = f := by
  have h := hreach.invariant (I := Inv c A f q m₀) (inv_start hq hstart)
    fun m a m' hm hok hm' => inv_step hthree hf hq hA hm hok.1 hok.2.1 hok.2.2 hm'
  rcases m with ⟨s, point⟩
  cases point with
  | receive => exact ⟨fun p hp => (h.extOut p hp).trans (if_pos rfl).symm, h.log⟩
  | send => exact ⟨fun p _ => congrFun h.2.1 p, [], h.2.2, by simp⟩
  | collect => exact ⟨fun p _ => congrFun h.2.1 p, [], h.2.2, by simp⟩
  | received => exact h.elim
  | retry => exact h.elim

/-! ### Rounds with a faulty replica -/

/-- TMR with one timed input and one timed output. -/
def rangerConfig : Config :=
  parseArgs "TMR" 1000 25 [⟨"RANGE_POSE_DATA", 3, 0, 1⟩, ⟨"MOV_CMD", 0, 4, 1⟩]

/-- Input has come in. -/
def rangerRound : Machine :=
  follow (step rangerConfig) [.externalWrites 0 [1], .voter true, .voter true] (start rangerConfig)

theorem roundStart_ranger : RoundStart rangerConfig 0 rangerRound :=
  ⟨by decide +kernel, by decide +kernel, by decide +kernel, by decide +kernel, by decide +kernel,
    by decide +kernel⟩

/-- The voter acts `n` times. -/
def voterSteps (n : ℕ) : List Act := List.replicate n (.voter true)

/-- Replica 0 writes a wrong byte, and all are read in one pass. -/
def wrongByte : List Act :=
  [Act.voter true, .replicaWrites 0 0 [88], .replicaWrites 1 0 [65], .replicaWrites 2 0 [65]] ++
    voterSteps 6

theorem quad_masked_wrongByte :
    (follow (step rangerConfig) wrongByte rangerRound).extOut 0 = [65] := by
  have hreach : Reaches (step rangerConfig) (fun m a =>
      Answers rangerConfig (fun _ => [65]) 0 {r | r ≠ 0} m.toState a ∧ InRound m a ∧
        Decisive rangerConfig (fun _ => [65]) 0 0 m a) rangerRound
      (follow (step rangerConfig) wrongByte rangerRound) :=
    reaches_follow (by decide +kernel) (by decide +kernel)
  have hmasked := (quad_masked (by decide +kernel) (by decide) (by decide +kernel)
    (by decide +kernel) roundStart_ranger hreach).1 0 (by decide +kernel)
  rw [hmasked, if_pos (by decide +kernel)]
  decide +kernel

/-- Replica 0 writes twice and replica 2 once; each write is read in a pass of its own, and
the third fills the count before replica 1 has written. -/
def wroteTwice : List Act :=
  [Act.voter true, .replicaWrites 0 0 [88]] ++ voterSteps 4 ++
    [Act.replicaWrites 0 0 [88]] ++ voterSteps 4 ++ [Act.replicaWrites 2 0 [65]] ++ voterSteps 4

/-- Replica 1 is killed and the byte of replica 0 is sent. -/
theorem quad_not_masked : RoundStart rangerConfig 0 rangerRound ∧ ∃ m,
    Reaches (step rangerConfig) (fun m a =>
      Answers rangerConfig (fun _ => [65]) 0 {r | r ≠ 0} m.toState a ∧ InRound m a) rangerRound m ∧
    m.now = rangerRound.now ∧ m.point = .receive ∧ m.extOut 0 = [88] ∧ .killed 1 ∈ m.log :=
  ⟨roundStart_ranger, follow (step rangerConfig) wroteTwice rangerRound,
    reaches_follow (by decide +kernel) (by decide +kernel), by decide +kernel, by decide +kernel,
    by decide +kernel, by decide +kernel⟩

end S3RES.VoterM.QuadCore
