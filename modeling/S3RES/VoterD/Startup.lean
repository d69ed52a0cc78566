import S3RES.VoterD.Reachable

/-!
# Start-up of VoterD

`parseArgs` turns the pipe arguments into the configuration, with the two timer arrays, and
`initVoterD` starts the replicas. `initial_initVoterD`: what it leaves behind is an initial
state, if the memory it was given for the vote pipes holds one start index per pipe.

The arguments are given as `parsePipe` has split them. The timer arrays have room for two
entries; a third timed pipe of one direction is written past their end, here to an entry
nothing reads.
-/

namespace S3RES.VoterD

open Loop Memory

/-- `PIPE_LIMIT`, `PERIOD_USEC` and `VOTER_PRIO_OFFSET`. -/
def pipeLimit : ℕ := 10

def periodUsec : ℤ := 120

def voterPrioOffset : ℤ := 5

/-- One pipe argument, `rep_info:fd_in:fd_out:timed`. -/
structure PipeArg where
  repInfo : String
  fdIn : ℕ
  fdOut : ℕ
  timed : Bool

/-- The vote pipe `parsePipe` fills in, over what the memory held. -/
def parsePipe (arg : PipeArg) (pipe : VotePipe) : VotePipe :=
  { pipe with repInfo := arg.repInfo, fdIn := arg.fdIn, fdOut := arg.fdOut, timed := arg.timed }

/-- The timer arrays while `parseArgs` fills them, with `c_in_pipe` and `c_out_pipe`. -/
structure TimerArrays where
  timerStartIndex : ℕ → ℕ
  cInPipe : ℕ
  timerStopIndex : ℕ → ℕ
  cOutPipe : ℕ

/-- The loop over the pipes that fills the timer arrays. -/
def indexTimers (extPipes : ℕ → VotePipe) (pipeCount : ℕ) : TimerArrays :=
  loop (fun i t =>
    if (extPipes i).timed then
      if (extPipes i).fdIn ≠ 0 then
        { t with
          timerStartIndex := Function.update t.timerStartIndex t.cInPipe i
          cInPipe := t.cInPipe + 1 }
      else
        { t with
          timerStopIndex := Function.update t.timerStopIndex t.cOutPipe i
          cOutPipe := t.cOutPipe + 1 }
    else t) pipeCount ⟨fun _ => 0, 0, fun _ => 0, 0⟩

/-- `parseArgs`, for the replication type, timeout, priority and pipes of the command line.
`memory` is what `malloc` returned for `ext_pipes`. -/
def parseArgs (type : String) (timeout voterPriority : ℤ) (pipes : List PipeArg)
    (memory : ℕ → VotePipe) : Config :=
  let pipeCount := min pipes.length pipeLimit
  let extPipes := fun i => if h : i < pipes.length then parsePipe pipes[i] (memory i) else memory i
  let timers := indexTimers extPipes pipeCount
  { votingTimeout := if timeout = 0 then periodUsec else timeout
    repType := reptypeToEnum type
    pipeCount := pipeCount
    extPipes := extPipes
    timerStartIndex := timers.timerStartIndex
    timerStopIndex := timers.timerStopIndex
    replicaPriority := voterPriority - voterPrioOffset }

/-- The process before `initVoterD`: no replica, and `vots` in the memory of the vote pipes. -/
def boot (vots : ℕ → ℕ → VotePipe) (fds : List ℕ) (now : ℕ) : State where
  point := .update
  timerStarted := false
  currentTimer := 0
  watchdog := 0
  replicas r := ⟨0, 0, 0, vots r, fun _ => 0, vots r⟩
  extData _ := []
  fds := fds
  queue _ _ := []
  extIn _ := []
  extOut _ := []
  now := now
  procs _ := ⟨false, fun _ => []⟩
  log := []

/-- The reads of zero bytes that touch the vote pipes, and clear their counts. -/
def touchPipes (c : Config) (s : State) : State :=
  loop (fun r s =>
    loop (fun p s =>
      if (s.vot r p).fdIn ≠ 0 then s.setVot r p { s.vot r p with buffCount := 0 } else s)
      (s.replicas r).pipeCount s) c.repCount s

/-- `initVoterD`. -/
def initVoterD (c : Config) (s : State) : State := touchPipes c (startReplicas c s)

variable {c : Config} {s t : State}

/-- The effect of `touchPipes`, over the replicas below `n`. -/
structure Touched (c : Config) (s t : State) (n : ℕ) : Prop extends SamePipes s t where
  timerStarted : t.timerStarted = s.timerStarted
  extOut : t.extOut = s.extOut
  log : t.log = s.log
  index : ∀ r p, (t.vot r p).buffIndex = (s.vot r p).buffIndex
  count : ∀ r < n, ∀ p < (s.replicas r).pipeCount, (s.vot r p).fdIn ≠ 0 →
    (t.vot r p).buffCount = 0

theorem touched_touchPipes (c : Config) (s : State) :
    Touched c s (touchPipes c s) c.repCount := by
  refine loop_induction (fun k t => Touched c s t k)
    ⟨.refl s, rfl, rfl, rfl, fun _ _ => rfl, fun r hr => absurd hr r.not_lt_zero⟩ ?_
  intro k _ t ht
  -- the inner loop, after `j` pipes of replica `k`
  have hinner := loop_induction (n := (t.replicas k).pipeCount) (s := t)
    (f := fun p s => if (s.vot k p).fdIn ≠ 0 then s.setVot k p { s.vot k p with buffCount := 0 }
      else s)
    (fun j u => Touched c s u k ∧
      ∀ p < j, (s.vot k p).fdIn ≠ 0 → (u.vot k p).buffCount = 0)
    ⟨ht, fun p hp => absurd hp p.not_lt_zero⟩ ?_
  · obtain ⟨htouched, hlast⟩ := hinner
    refine ⟨htouched.toSamePipes, htouched.timerStarted, htouched.extOut, htouched.log,
      htouched.index, fun r hr p hp hfd => ?_⟩
    rcases Nat.lt_succ_iff_lt_or_eq.mp hr with hlt | rfl
    · exact htouched.count r hlt p hp hfd
    · have hcount : (t.replicas r).pipeCount = (s.replicas r).pipeCount :=
        congrArg Plumbing.pipeCount (congrFun ht.plumbing r)
      exact hlast p (hcount ▸ hp) hfd
  · rintro j _ u ⟨hu, hdone⟩
    have hfd : ∀ p, (u.vot k p).fdIn = (s.vot k p).fdIn := fun p =>
      congrFun (congrArg Plumbing.votIn (congrFun hu.plumbing k)) p
    split
    · rename_i hset
      refine ⟨⟨hu.toSamePipes.trans (samePipes_setVot u rfl rfl), hu.timerStarted, hu.extOut,
        hu.log, fun r p => ?_, fun r hr p hp hne => ?_⟩, fun p hp hne => ?_⟩
      · rw [vot_setVot]
        split
        · rename_i heq
          obtain ⟨rfl, rfl⟩ := heq
          exact hu.index r p
        · exact hu.index r p
      · rw [vot_setVot, if_neg fun h => hr.ne h.1]
        exact hu.count r hr p hp hne
      · rw [vot_setVot]
        split
        · rfl
        · rename_i hpj
          have hne' : p ≠ j := fun h => hpj ⟨rfl, h⟩
          exact hdone p (by omega) hne
    · rename_i hunset
      refine ⟨hu, fun p hp hne => ?_⟩
      rcases Nat.lt_succ_iff_lt_or_eq.mp hp with hlt | rfl
      · exact hdone p hlt hne
      · exact absurd ((hfd p).trans_ne hne) hunset

/-- **Start-up.** `initVoterD` leaves an initial state behind. -/
theorem initial_initVoterD {vots : ℕ → ℕ → VotePipe} {fds : List ℕ} (now : ℕ)
    (hpos : 0 < c.repCount) (h0 : 0 ∈ fds) (hext : ∀ p < c.pipeCount, (c.extPipes p).fdIn ∈ fds)
    (hindex : ∀ p < c.pipeCount, c.IsOut p → ∀ r < c.repCount,
      (vots r p).buffIndex < maxVotePipeBuff ∧ (vots r p).buffIndex = (vots 0 p).buffIndex) :
    Initial c (initVoterD c (boot vots fds now)) := by
  have hstarted := restarted_startReplicas (c := c) (s := boot vots fds now) h0 hext
    fun r _ p _ hheld => by
      obtain ⟨-, i, hi, -⟩ := hheld
      exact i.not_lt_zero hi
  have htouched := touched_touchPipes c (startReplicas c (boot vots fds now))
  have hplumbed : Plumbed c (initVoterD c (boot vots fds now)) :=
    hstarted.plumbed.congr htouched.fds htouched.plumbing
  have hcount : ∀ r < c.repCount, ∀ p < c.pipeCount, c.IsOut p →
      ((initVoterD c (boot vots fds now)).vot r p).buffCount = 0 := fun r hr p hp hout =>
    htouched.count r hr p (by rw [hstarted.plumbed.pipeCount hr]; exact hp)
      ((hstarted.plumbed.fdIn_ne_zero_iff hr hp).mpr hout)
  have hinit : ∀ r < c.repCount, ∀ p,
      ((initVoterD c (boot vots fds now)).vot r p).buffIndex = (vots r p).buffIndex := by
    intro r hr p
    exact (htouched.index r p).trans ((hstarted.index r hr p).trans (if_neg p.not_lt_zero))
  refine ⟨hpos, htouched.point.trans hstarted.point, htouched.timerStarted.trans
    hstarted.timerStarted, hplumbed, fun p hp hout => ⟨fun r hr => ⟨?_, ?_⟩,
      fun r hr r' hr' => ?_⟩, hcount, fun r p => ?_, fun p => ?_, fun r p => ?_, fun e he => ?_⟩
  · rw [hinit r hr]
    exact (hindex p hp hout r hr).1
  · rw [hcount r hr p hp hout]
    exact maxVotePipeBuff_pos
  · rw [hinit r hr, hinit r' hr', (hindex p hp hout r hr).2, (hindex p hp hout r' hr').2]
  · exact (congrFun (congrFun htouched.queue r) p).trans
      ((hstarted.queue r p).trans (by split <;> rfl))
  · exact congrFun (htouched.extOut.trans hstarted.extOut) p
  · have hprocs := (congrFun htouched.procs r).trans (hstarted.procs r)
    rw [initVoterD, hprocs]
    split <;> rfl
  · rw [initVoterD, htouched.log, hstarted.log] at he
    obtain ⟨r, -, rfl⟩ : ∃ r < c.repCount, Event.started r now = e := by
      simpa [boot] using he
    refine ⟨r, ?_⟩
    rw [initVoterD, htouched.now, hstarted.now]
    rfl

/-! ### The timer arrays -/

/-- The timed pipes of one direction, in the order of the arguments. -/
def timedPipes (extPipes : ℕ → VotePipe) (n : ℕ) (inward : Bool) : List ℕ :=
  (List.range n).filter fun p => (extPipes p).timed && decide ((extPipes p).fdIn ≠ 0) == inward

/-- The array `parseArgs` makes of a list of pipes: unused entries stay `0`. -/
def timerArray (pipes : List ℕ) (k : ℕ) : ℕ := (pipes[k]?).getD 0

theorem timerArray_append (pipes : List ℕ) (p : ℕ) :
    timerArray (pipes ++ [p]) = Function.update (timerArray pipes) pipes.length p := by
  funext k
  rcases lt_trichotomy k pipes.length with h | rfl | h
  · simp [timerArray, h, h.ne, List.getElem?_append_left h]
  · simp [timerArray]
  · have hk : pipes.length + 1 ≤ k := h
    simp [timerArray, h.ne', List.getElem?_eq_none, hk, h.le]

/-- The loop of `parseArgs` lists the timed pipes. -/
theorem indexTimers_eq (extPipes : ℕ → VotePipe) (n : ℕ) :
    indexTimers extPipes n =
      ⟨timerArray (timedPipes extPipes n true), (timedPipes extPipes n true).length,
        timerArray (timedPipes extPipes n false), (timedPipes extPipes n false).length⟩ := by
  refine loop_induction (fun k (t : TimerArrays) => t =
    ⟨timerArray (timedPipes extPipes k true), (timedPipes extPipes k true).length,
      timerArray (timedPipes extPipes k false), (timedPipes extPipes k false).length⟩)
    rfl fun k _ t ht => ?_
  subst ht
  simp only [timedPipes, List.range_succ, List.filter_append]
  by_cases htimed : (extPipes k).timed
  · by_cases hin : (extPipes k).fdIn = 0
    · simp [htimed, hin, timerArray_append]
    · simp [htimed, hin, timerArray_append]
  · simp [htimed]

/-- The timed inputs of a configuration. -/
def Config.timedIn (c : Config) : List ℕ := timedPipes c.extPipes c.pipeCount true

/-- The timed outputs of a configuration. -/
def Config.timedOut (c : Config) : List ℕ := timedPipes c.extPipes c.pipeCount false

/-! ### Start-up from zeroed memory -/

/-- Zeroed memory. -/
def zeroPipe : VotePipe := ⟨"", 0, 0, false, 0, 0, fun _ => 0⟩

/-- VoterD started from zeroed memory at time `0`, with descriptors `0, …, n - 1` open. -/
def start (c : Config) (n : ℕ) : State :=
  initVoterD c (boot (fun _ _ => zeroPipe) (List.range n) 0)

theorem initial_start {n : ℕ} (hpos : 0 < c.repCount) (hn : 0 < n)
    (hext : ∀ p < c.pipeCount, (c.extPipes p).fdIn < n) : Initial c (start c n) :=
  initial_initVoterD 0 hpos (List.mem_range.mpr hn) (fun p hp => List.mem_range.mpr (hext p hp))
    fun _ _ _ _ _ => ⟨maxVotePipeBuff_pos, rfl⟩

/-- All calls of `sched_set_policy` succeed. -/
def granted : ℕ → ℕ → Bool := fun _ _ => true

end S3RES.VoterD
