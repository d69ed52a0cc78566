import S3RES.Controllers.Driving
import S3RES.Foundations.Circulation
import S3RES.Foundations.Recorder

/-!
# From the ranger to the odometry and back

Translator numbers what the ranger reports and passes it on to BenchMarker, BenchMarker to Filter
unless an answer is pending, Filter to ArtPot, and the command of ArtPot goes back by BenchMarker to
Translator, which goes on from its number.

An iteration of a loop that finds two of its pipes readable is two steps here. Filter and ArtPot can
be killed and started again, also between a read and the write that answers it (`filterDies`,
`artPotDies`). The waypoints come from outside, and so does what the other readers of Filter do.

What is under way is a ring (`Net.ring`), and every step moves it (`ring_step`), so Translator never
gets a number out of order (`numbers_in_order`) and no reader misses one (`no_number_skipped`).
`one_response`: one message at a time is between BenchMarker and its answer. `lost_response`: the
loop does not survive the loss of it. `robot_bounds`: the robot is never driven out of bounds.
-/

namespace S3RES.CommandLoop

open ArtPot (Libm Indexes Globals)
open Circulation Loop StepSystem

variable {N : Type*}

/-! ### Translator -/

/-- The variables of the driver. -/
structure Translator (N : Type*) where
  seqCount : ℤ
  pose : Fin 3 → N

/-- `ProcessOdom`. -/
def Translator.processOdom (t : Translator N) (pose : Fin 3 → N) : Translator N :=
  { t with pose := pose }

/-- The message of `ProcessRanger`. -/
def Translator.processRanger (t : Translator N) (ranges : Fin rangerCount → N) : RangePoseData N :=
  ⟨t.seqCount, ranges, t.pose⟩

/-- `DoOneUpdate` reads a command; with the speed and the turn rate for `PutCommand`. -/
def Translator.doOneUpdate (t : Translator N) (msg : MovCmd N) : Translator N × N × N :=
  ({ t with seqCount := msg.seqCount + 1 }, msg.velCmd 0, msg.velCmd 1)

/-! ### BenchMarker -/

/-- The variables of BenchMarker, with the reads that are left to `main`. -/
structure BenchMarker where
  preReads : ℕ
  seqCount : ℤ
  waitingResponse : Bool

/-- BenchMarker reads data: before the main loop it is dropped. -/
def BenchMarker.takeData (b : BenchMarker) (msg : RangePoseData N) :
    BenchMarker × List (RangePoseData N) :=
  if 0 < b.preReads then ({ b with preReads := b.preReads - 1 }, [])
  else if b.waitingResponse then ({ b with seqCount := msg.seqCount }, [])
  else ({ b with seqCount := msg.seqCount, waitingResponse := true }, [msg])

/-- BenchMarker reads a command. -/
def BenchMarker.takeResponse (b : BenchMarker) (msg : MovCmd N) : BenchMarker × List (MovCmd N) :=
  ({ b with waitingResponse := false }, [msg])

/-! ### Filter -/

/-- The globals of Filter. -/
structure Filter (N : Type*) where
  seqCount : ℤ
  ranges : Fin rangerCount → N
  pose : Fin 3 → N

/-- `out_index`. -/
def outIndex (i : ℕ) : ℕ := i + 1

/-- `command`: what is written to each pipe. -/
def Filter.command (pipes : ℕ → TypedPipe) (pipeCount : ℕ) (f : Filter N) :
    ℕ → List (RangePoseData N) :=
  loop (fun i out => Function.update out (outIndex i)
    (out (outIndex i) ++ commSendRanger (pipes (outIndex i)) f.seqCount f.ranges f.pose))
    (pipeCount - 1) fun _ => []

/-- `enterLoop` reads data. -/
def Filter.takeData (pipes : ℕ → TypedPipe) (pipeCount : ℕ) (msg : RangePoseData N) :
    Filter N × (ℕ → List (RangePoseData N)) :=
  let f : Filter N := ⟨msg.seqCount, msg.ranges, msg.pose⟩
  (f, f.command pipes pipeCount)

/-- What was written to a pipe. -/
theorem command_apply (pipes : ℕ → TypedPipe) (pipeCount : ℕ) (f : Filter N) (p : ℕ) :
    f.command pipes pipeCount p = if 0 < p ∧ p < pipeCount then
      commSendRanger (pipes p) f.seqCount f.ranges f.pose else [] := by
  have hloop : ∀ p, f.command pipes pipeCount p = if 0 < p ∧ p ≤ pipeCount - 1 then
      commSendRanger (pipes p) f.seqCount f.ranges f.pose else [] := by
    refine loop_induction (fun k (out : ℕ → List (RangePoseData N)) => ∀ p, out p = if 0 < p ∧ p ≤ k then
      commSendRanger (pipes p) f.seqCount f.ranges f.pose else []) (fun p => ?_) ?_
    · rw [if_neg (by omega)]
    · intro k hk out hout p
      rcases eq_or_ne p (outIndex k) with rfl | hne
      · rw [Function.update_self, hout, if_neg (by simp [outIndex]), if_pos (by simp [outIndex]),
          List.nil_append]
      · rw [Function.update_of_ne hne, hout]
        refine if_congr ?_ rfl rfl
        rw [outIndex] at hne
        omega
  rw [hloop]
  exact if_congr (by omega) rfl rfl

/-! ### The loop -/

/-- The functions of `math.h`, the pipes of Filter with the one that leads to ArtPot, and those of
ArtPot. -/
structure Wiring (N : Type*) where
  libm : Libm N
  filterPipes : ℕ → TypedPipe
  filterPipeCount : ℕ
  filterOut : ℕ
  filterOut_pos : 0 < filterOut
  filterOut_lt : filterOut < filterPipeCount
  filterSends : Sends .rangePoseData (filterPipes filterOut)
  artPotPipes : ℤ → TypedPipe
  ix : Indexes
  artPotSends : Sends .movCmd (artPotPipes ix.out)

/-- The parties, and what is in the pipes between them, the oldest first. -/
structure Net (N : Type*) where
  translator : Translator N
  bench : BenchMarker
  filter : Filter N
  artPot : Globals N
  toBench : List (RangePoseData N)
  toFilter : List (RangePoseData N)
  toArtPot : List (RangePoseData N)
  responses : List (MovCmd N)
  toTranslator : List (MovCmd N)

/-- What can happen. -/
inductive Act (N : Type*)
  | odometry (pose : Fin 3 → N)
  | ranger (ranges : Fin rangerCount → N)
  | translatorTakesCommand
  | benchTakesData
  | benchTakesResponse
  | filterTakesData
  | artPotTakesData
  | artPotTakesWaypoints (msg : WayRes N)
  | filterRestarts
  | artPotRestarts
  /-- Filter is killed when it has read a message. -/
  | filterDies
  /-- ArtPot is killed when it has read a message. -/
  | artPotDies

/-- Filter as `main` starts it. -/
def Filter.start [Zero N] : Filter N := ⟨-1, 0, 0⟩

variable [Field N] [LinearOrder N]

/-- One step; a message can be taken if there is one. -/
def step (w : Wiring N) (s : Net N) : Act N → Option (Net N)
  | .odometry pose => some { s with translator := s.translator.processOdom pose }
  | .ranger ranges =>
    some { s with toBench := s.toBench ++ [s.translator.processRanger ranges] }
  | .translatorTakesCommand =>
    match s.toTranslator with
    | [] => none
    | msg :: rest => some { s with
        translator := (s.translator.doOneUpdate msg).1
        toTranslator := rest }
  | .benchTakesData =>
    match s.toBench with
    | [] => none
    | msg :: rest => some { s with
        bench := (s.bench.takeData msg).1
        toBench := rest
        toFilter := s.toFilter ++ (s.bench.takeData msg).2 }
  | .benchTakesResponse =>
    match s.responses with
    | [] => none
    | msg :: rest =>
      if 0 < s.bench.preReads then none
      else some { s with
        bench := (s.bench.takeResponse msg).1
        responses := rest
        toTranslator := s.toTranslator ++ (s.bench.takeResponse msg).2 }
  | .filterTakesData =>
    match s.toFilter with
    | [] => none
    | msg :: rest =>
      let taken := Filter.takeData w.filterPipes w.filterPipeCount msg
      some { s with
        filter := taken.1
        toFilter := rest
        toArtPot := s.toArtPot ++ taken.2 w.filterOut }
  | .artPotTakesData =>
    match s.toArtPot with
    | [] => none
    | msg :: rest =>
      let taken := ArtPot.takeData w.libm w.artPotPipes w.ix s.artPot msg
      some { s with
        artPot := taken.1
        toArtPot := rest
        responses := s.responses ++ taken.2.movCmds }
  | .artPotTakesWaypoints msg => some { s with artPot := ArtPot.takeWaypoints s.artPot msg }
  | .filterRestarts => some { s with filter := .start }
  | .artPotRestarts => some { s with artPot := ArtPot.start }
  | .filterDies =>
    match s.toFilter with
    | [] => none
    | _ :: rest => some { s with filter := .start, toFilter := rest }
  | .artPotDies =>
    match s.toArtPot with
    | [] => none
    | _ :: rest => some { s with artPot := ArtPot.start, toArtPot := rest }

/-- All have just been started. -/
def start : Net N where
  translator := ⟨0, ArtPot.startPosition⟩
  bench := ⟨50, -1, false⟩
  filter := .start
  artPot := ArtPot.start
  toBench := []
  toFilter := []
  toArtPot := []
  responses := []
  toTranslator := []

variable {w : Wiring N} {s s' t : Net N} {act : Act N}

/-- What each step does. -/
inductive Effect (w : Wiring N) (s : Net N) : Act N → Net N → Prop
  | odometry (pose : Fin 3 → N) :
      Effect w s (.odometry pose) { s with translator := s.translator.processOdom pose }
  | ranger (ranges : Fin rangerCount → N) : Effect w s (.ranger ranges)
      { s with toBench := s.toBench ++ [s.translator.processRanger ranges] }
  | command {msg : MovCmd N} {rest : List (MovCmd N)} (h : s.toTranslator = msg :: rest) :
      Effect w s .translatorTakesCommand
        { s with translator := (s.translator.doOneUpdate msg).1, toTranslator := rest }
  | preRead {msg : RangePoseData N} {rest : List (RangePoseData N)} (h : s.toBench = msg :: rest)
      (hpre : 0 < s.bench.preReads) : Effect w s .benchTakesData
        { s with bench := { s.bench with preReads := s.bench.preReads - 1 }, toBench := rest }
  | drop {msg : RangePoseData N} {rest : List (RangePoseData N)} (h : s.toBench = msg :: rest)
      (hpre : s.bench.preReads = 0) (hwait : s.bench.waitingResponse = true) :
      Effect w s .benchTakesData
        { s with bench := { s.bench with seqCount := msg.seqCount }, toBench := rest }
  | forward {msg : RangePoseData N} {rest : List (RangePoseData N)} (h : s.toBench = msg :: rest)
      (hpre : s.bench.preReads = 0) (hwait : s.bench.waitingResponse = false) :
      Effect w s .benchTakesData { s with
        bench := { s.bench with seqCount := msg.seqCount, waitingResponse := true }
        toBench := rest
        toFilter := s.toFilter ++ [msg] }
  | response {msg : MovCmd N} {rest : List (MovCmd N)} (h : s.responses = msg :: rest)
      (hpre : s.bench.preReads = 0) : Effect w s .benchTakesResponse { s with
        bench := { s.bench with waitingResponse := false }
        responses := rest
        toTranslator := s.toTranslator ++ [msg] }
  | filter {msg : RangePoseData N} {rest : List (RangePoseData N)} (h : s.toFilter = msg :: rest) :
      Effect w s .filterTakesData { s with
        filter := ⟨msg.seqCount, msg.ranges, msg.pose⟩
        toFilter := rest
        toArtPot := s.toArtPot ++ [msg] }
  | artPot {msg : RangePoseData N} {rest : List (RangePoseData N)} {a : Globals N} {cmd : MovCmd N}
      (h : s.toArtPot = msg :: rest) (ha : a.seqCount = msg.seqCount)
      (hcmd : ∃ ranges dist theta, cmd = ⟨msg.seqCount,
        ![(ArtPot.velCmd w.libm ranges dist theta).1, (ArtPot.velCmd w.libm ranges dist theta).2]⟩) :
      Effect w s .artPotTakesData
        { s with artPot := a, toArtPot := rest, responses := s.responses ++ [cmd] }
  | waypoints (msg : WayRes N) : Effect w s (.artPotTakesWaypoints msg)
      { s with artPot := ArtPot.takeWaypoints s.artPot msg }
  | filterRestart : Effect w s .filterRestarts { s with filter := .start }
  | artPotRestart : Effect w s .artPotRestarts { s with artPot := ArtPot.start }
  | filterDeath {msg : RangePoseData N} {rest : List (RangePoseData N)}
      (h : s.toFilter = msg :: rest) :
      Effect w s .filterDies { s with filter := .start, toFilter := rest }
  | artPotDeath {msg : RangePoseData N} {rest : List (RangePoseData N)}
      (h : s.toArtPot = msg :: rest) :
      Effect w s .artPotDies { s with artPot := ArtPot.start, toArtPot := rest }

/-- The number of the data is the number of ArtPot then. -/
theorem seqCount_takeData (w : Wiring N) (a : Globals N) (msg : RangePoseData N) :
    (ArtPot.takeData w.libm w.artPotPipes w.ix a msg).1.seqCount = msg.seqCount := by
  rw [ArtPot.takeData, ArtPot.command]
  simp only [ArtPot.request, ArtPot.tryNext]
  split_ifs <;> rfl

omit [Field N] [LinearOrder N] in
/-- What Filter passes on to ArtPot. -/
theorem takeData_filterOut (w : Wiring N) (msg : RangePoseData N) :
    (Filter.takeData w.filterPipes w.filterPipeCount msg).2 w.filterOut = [msg] := by
  dsimp only [Filter.takeData]
  rw [command_apply, if_pos ⟨w.filterOut_pos, w.filterOut_lt⟩, commSendRanger,
    sendOn_of_sends w.filterSends]

theorem effect_of_step (hs : s' ∈ step w s act) : Effect w s act s' := by
  cases act with
  | odometry pose =>
    obtain rfl := Option.some.inj hs
    exact .odometry pose
  | ranger ranges =>
    obtain rfl := Option.some.inj hs
    exact .ranger ranges
  | translatorTakesCommand =>
    cases h : s.toTranslator with
    | nil => simp [step, h] at hs
    | cons msg rest =>
      simp only [step, h] at hs
      obtain rfl := Option.some.inj hs
      exact .command h
  | benchTakesData =>
    cases h : s.toBench with
    | nil => simp [step, h] at hs
    | cons msg rest =>
      simp only [step, h, BenchMarker.takeData] at hs
      split_ifs at hs with hpre hwait
      · obtain rfl := Option.some.inj hs
        simpa using Effect.preRead h hpre
      · obtain rfl := Option.some.inj hs
        simpa using Effect.drop h (Nat.eq_zero_of_not_pos hpre) hwait
      · obtain rfl := Option.some.inj hs
        exact .forward h (Nat.eq_zero_of_not_pos hpre) (Bool.eq_false_iff.mpr hwait)
  | benchTakesResponse =>
    cases h : s.responses with
    | nil => simp [step, h] at hs
    | cons msg rest =>
      simp only [step, h] at hs
      split_ifs at hs with hpre
      · cases hs
      · obtain rfl := Option.some.inj hs
        exact .response h (Nat.eq_zero_of_not_pos hpre)
  | filterTakesData =>
    cases h : s.toFilter with
    | nil => simp [step, h] at hs
    | cons msg rest =>
      simp only [step, h, takeData_filterOut] at hs
      obtain rfl := Option.some.inj hs
      exact .filter h
  | artPotTakesData =>
    cases h : s.toArtPot with
    | nil => simp [step, h] at hs
    | cons msg rest =>
      obtain ⟨ranges, dist, theta, hmovCmds⟩ :=
        ArtPot.movCmds_takeData w.libm w.artPotSends s.artPot msg
      simp only [step, h, hmovCmds] at hs
      obtain rfl := Option.some.inj hs
      exact .artPot h (seqCount_takeData w s.artPot msg) ⟨ranges, dist, theta, rfl⟩
  | artPotTakesWaypoints msg =>
    obtain rfl := Option.some.inj hs
    exact .waypoints msg
  | filterRestarts =>
    obtain rfl := Option.some.inj hs
    exact .filterRestart
  | artPotRestarts =>
    obtain rfl := Option.some.inj hs
    exact .artPotRestart
  | filterDies =>
    cases h : s.toFilter with
    | nil => simp [step, h] at hs
    | cons msg rest =>
      simp only [step, h] at hs
      obtain rfl := Option.some.inj hs
      exact .filterDeath h
  | artPotDies =>
    cases h : s.toArtPot with
    | nil => simp [step, h] at hs
    | cons msg rest =>
      simp only [step, h] at hs
      obtain rfl := Option.some.inj hs
      exact .artPotDeath h

/-! ### The ring -/

/-- The counter of a party, where it stands in the ring. -/
def mark (marked : Bool) (seqCount : ℤ) : List ℤ := if marked then [seqCount] else []

/-- The numbers under way, with the counters of those they pass or without. -/
def Net.ring (s : Net N) (marked : Bool) : Ring where
  sent := s.toTranslator.map (·.seqCount) ++ (s.responses.map (·.seqCount) ++
    (mark marked s.artPot.seqCount ++ (s.toArtPot.map (·.seqCount) ++
    (mark marked s.filter.seqCount ++ (s.toFilter.map (·.seqCount) ++
    (mark marked s.bench.seqCount ++ s.toBench.map (·.seqCount)))))))
  next := s.translator.seqCount

/-- A controller starts again. -/
def Act.IsRestart : Act N → Prop
  | .filterRestarts | .artPotRestarts | .filterDies | .artPotDies => True
  | _ => False

/-- A message is read, and passed on. -/
theorem moves_mark (marked : Bool) (l l' : List ℤ) (c x n : ℤ) :
    Moves ⟨l ++ (mark marked c ++ x :: l'), n⟩ ⟨l ++ x :: (mark marked x ++ l'), n⟩ := by
  cases marked with
  | false => exact .refl
  | true => exact moves_pass l l' c x n

/-- A message is read, and dropped. -/
theorem moves_drop (marked : Bool) (l l' : List ℤ) (c x n : ℤ) :
    Moves ⟨l ++ (mark marked c ++ x :: l'), n⟩ ⟨l ++ (mark marked x ++ l'), n⟩ := by
  cases marked with
  | false => exact .single (.lose (by simp [mark]))
  | true => exact .single (.lose (by simp [mark]))

/-- A message is lost. -/
theorem moves_lose (l l' : List ℤ) (x n : ℤ) : Moves ⟨l ++ x :: l', n⟩ ⟨l ++ l', n⟩ :=
  .single (.lose (by simp))

/-- **Every step moves the ring.** -/
theorem ring_step {marked : Bool} (hs : s' ∈ step w s act) (hmarked : marked → ¬ act.IsRestart) :
    Moves (s.ring marked) (s'.ring marked) := by
  cases effect_of_step hs with
  | odometry | waypoints => exact .refl
  | ranger ranges =>
    refine .single ?_
    simpa [Net.ring, Translator.processRanger] using
      Move.send (l := (s.ring marked).sent) (n := s.translator.seqCount)
  | command h =>
    refine .single ?_
    simp only [Net.ring, h, List.map_cons, List.cons_append]
    exact .back
  | @preRead msg rest h =>
    simpa [Net.ring, h] using moves_lose (s.toTranslator.map (·.seqCount) ++
      (s.responses.map (·.seqCount) ++ (mark marked s.artPot.seqCount ++
      (s.toArtPot.map (·.seqCount) ++ (mark marked s.filter.seqCount ++
      (s.toFilter.map (·.seqCount) ++ mark marked s.bench.seqCount))))))
      (rest.map (·.seqCount)) msg.seqCount s.translator.seqCount
  | @drop msg rest h =>
    simpa [Net.ring, h] using moves_drop marked (s.toTranslator.map (·.seqCount) ++
      (s.responses.map (·.seqCount) ++ (mark marked s.artPot.seqCount ++
      (s.toArtPot.map (·.seqCount) ++ (mark marked s.filter.seqCount ++
      s.toFilter.map (·.seqCount))))))
      (rest.map (·.seqCount)) s.bench.seqCount msg.seqCount s.translator.seqCount
  | @forward msg rest h =>
    simpa [Net.ring, h] using moves_mark marked (s.toTranslator.map (·.seqCount) ++
      (s.responses.map (·.seqCount) ++ (mark marked s.artPot.seqCount ++
      (s.toArtPot.map (·.seqCount) ++ (mark marked s.filter.seqCount ++
      s.toFilter.map (·.seqCount))))))
      (rest.map (·.seqCount)) s.bench.seqCount msg.seqCount s.translator.seqCount
  | response h =>
    simp only [Net.ring, h, List.map_cons, List.map_append, List.map_nil, List.append_assoc,
      List.cons_append, List.nil_append]
    exact .refl
  | @filter msg rest h =>
    simpa [Net.ring, h] using moves_mark marked (s.toTranslator.map (·.seqCount) ++
      (s.responses.map (·.seqCount) ++ (mark marked s.artPot.seqCount ++
      s.toArtPot.map (·.seqCount))))
      (rest.map (·.seqCount) ++ (mark marked s.bench.seqCount ++ s.toBench.map (·.seqCount)))
      s.filter.seqCount msg.seqCount s.translator.seqCount
  | @artPot msg rest a cmd h ha hcmd =>
    obtain ⟨ranges, dist, theta, rfl⟩ := hcmd
    simpa [Net.ring, h, ha] using moves_mark marked (s.toTranslator.map (·.seqCount) ++
      s.responses.map (·.seqCount)) (rest.map (·.seqCount) ++ (mark marked s.filter.seqCount ++
      (s.toFilter.map (·.seqCount) ++ (mark marked s.bench.seqCount ++
      s.toBench.map (·.seqCount))))) s.artPot.seqCount msg.seqCount s.translator.seqCount
  | filterRestart | artPotRestart =>
    obtain rfl : marked = false := Bool.eq_false_iff.mpr fun h => hmarked h trivial
    exact .refl
  | filterDeath h | artPotDeath h =>
    obtain rfl : marked = false := Bool.eq_false_iff.mpr fun h => hmarked h trivial
    refine .single (.lose ?_)
    simp [h, mark]

/-! ### A run -/

/-- Filter with one reader, and ArtPot with its functions. -/
def wiring (m : Libm N) : Wiring N where
  libm := m
  filterPipes _ := ⟨.rangePoseData, 0, 4⟩
  filterPipeCount := 2
  filterOut := 1
  filterOut_pos := by decide
  filterOut_lt := by decide
  filterSends := by decide
  artPotPipes i := ⟨if i = 1 then .movCmd else .wayReq, 0, 5⟩
  ix := ⟨0, 1, 2, 3⟩
  artPotSends := by decide

/-- BenchMarker drops 50 messages and passes on the next, and Filter passes it on. -/
def firstForward : List (Act N) :=
  List.replicate 51 (.ranger 0) ++ List.replicate 51 .benchTakesData ++ [.filterTakesData]

/-! ### The numbers -/

omit [LinearOrder N] in
theorem ordered_start : Ordered 0 ((start : Net N).ring false) := by
  constructor <;> simp [Net.ring, mark, start]

omit [LinearOrder N] in
theorem ordered_start_marked : Ordered (-1) ((start : Net N).ring true) := by
  constructor <;> simp [Net.ring, mark, start, Filter.start, ArtPot.start]

/-- The number is the same or the next. -/
def Follows (a b : ℤ) : Prop := b = a ∨ b = a + 1

/-- What Translator has read. -/
def note (s : Net N) : Act N → List (MovCmd N) → List (MovCmd N)
  | .translatorTakesCommand, taken => taken ++ s.toTranslator.head?.toList
  | _, taken => taken

/-- The commands that were read are numbered from 0, Translator goes on from the last, and all that
is under way is in order. -/
structure Numbered (s : Net N) (taken : List (MovCmd N)) : Prop where
  ordered : Ordered 0 (s.ring false)
  chain : (taken.map (·.seqCount)).IsChain Follows
  first : ∀ cmd ∈ taken.head?, cmd.seqCount = 0
  last : ∀ cmd ∈ taken.getLast?, s.translator.seqCount = cmd.seqCount + 1
  none : taken = [] → s.translator.seqCount = 0

theorem Numbered.step {taken : List (MovCmd N)} (h : Numbered s taken)
    (hs : s' ∈ CommandLoop.step w s act) : Numbered s' (note s act taken) := by
  have hmoves : Moves (s.ring false) (s'.ring false) := ring_step hs (by simp)
  have hordered := h.ordered.moves hmoves
  cases effect_of_step hs with
  | @command msg rest hmsg =>
    have hnext := h.ordered.mem_cases (x := msg.seqCount) (by simp [Net.ring, hmsg])
    have habove := h.ordered.above msg.seqCount (by simp [Net.ring, hmsg])
    simp only [Net.ring] at hnext
    have hnote : note s .translatorTakesCommand taken = taken ++ [msg] := by simp [note, hmsg]
    rw [hnote]
    refine ⟨hordered, ?_, ?_, by simp [Translator.doOneUpdate], by simp⟩
    · rw [List.map_append, List.isChain_append]
      refine ⟨h.chain, List.isChain_singleton _, ?_⟩
      simp only [List.getLast?_map, Option.mem_def, Option.map_eq_some_iff, List.map_cons,
        List.map_nil, List.head?_cons, Option.some.injEq]
      rintro _ ⟨cmd, hcmd, rfl⟩ _ rfl
      have hlast := h.last cmd hcmd
      rw [Follows]
      omega
    · cases taken with
      | nil =>
        have hzero := h.none rfl
        simp only [List.nil_append, List.head?_cons, Option.mem_def, Option.some.injEq]
        rintro _ rfl
        omega
      | cons cmd taken => exact h.first
  | ranger | odometry | preRead | drop | forward | response | filter | artPot | waypoints
  | filterRestart | artPotRestart | filterDeath | artPotDeath =>
    exact ⟨hordered, h.chain, h.first, h.last, h.none⟩

/-- **Numbers in order.** In every order of steps, with Filter and ArtPot being restarted at any
time and messages being lost with them: the numbers of the commands that Translator reads start with
0, and each is that of the command before or the next. What is under way has the numbers that are
still to come, in order. -/
theorem numbers_in_order {x : Net N × List (MovCmd N)}
    (h : Reaches (record (step w) note) (fun _ _ => True) (start, []) x) : Numbered x.1 x.2 := by
  refine h.invariant (I := fun x => Numbered x.1 x.2) ⟨ordered_start, by simp, by simp,
    by simp, fun _ => rfl⟩ ?_
  rintro ⟨t, taken⟩ a ⟨u, taken'⟩ ht - hu
  obtain ⟨hu, rfl⟩ := mem_record.mp hu
  exact ht.step hu

/-- The first command. -/
theorem numbers_in_order_firstForward :
    Numbered (follow (record (step (wiring ArtPot.realLibm)) note) (firstForward ++
      [.artPotTakesData, .benchTakesResponse, .translatorTakesCommand]) (start, [])).1
      (follow (record (step (wiring ArtPot.realLibm)) note) (firstForward ++
        [.artPotTakesData, .benchTakesResponse, .translatorTakesCommand]) (start, [])).2 :=
  numbers_in_order (reaches_follow (allSteps_true _ _) (by decide +kernel))

/-- **No number is skipped.** In every order of steps without a restart: whatever waits for a
reader has the number that it read last, or the next, and the commands that wait for Translator have
the number that it sends or the one before. -/
theorem no_number_skipped (h : Reaches (step w) (fun _ act => ¬ act.IsRestart) start s) :
    (∀ msg ∈ s.toBench, Follows s.bench.seqCount msg.seqCount) ∧
      (∀ msg ∈ s.toFilter, Follows s.filter.seqCount msg.seqCount) ∧
      (∀ msg ∈ s.toArtPot, Follows s.artPot.seqCount msg.seqCount) ∧
      (∀ cmd ∈ s.responses, Follows cmd.seqCount s.bench.seqCount) ∧
      ∀ cmd ∈ s.toTranslator, Follows cmd.seqCount s.translator.seqCount := by
  have hordered : Ordered (-1) (s.ring true) :=
    h.invariant (I := fun s => Ordered (-1) (s.ring true)) ordered_start_marked
      fun _ _ _ ht hact hu => ht.moves (ring_step hu fun _ => hact)
  -- the ring from the oldest command to what waits for BenchMarker
  set cmds := s.toTranslator.map (·.seqCount) with hcmds
  set responses := s.responses.map (·.seqCount) with hresponses
  set artPots := s.toArtPot.map (·.seqCount) with hartPots
  set filters := s.toFilter.map (·.seqCount) with hfilters
  set benches := s.toBench.map (·.seqCount) with hbenches
  have hring : (s.ring true).sent = cmds ++ (responses ++ s.artPot.seqCount :: (artPots ++
      s.filter.seqCount :: (filters ++ s.bench.seqCount :: benches))) := by
    simp [Net.ring, mark, hcmds, hresponses, hartPots, hfilters, hbenches]
  refine ⟨fun msg hmsg => ?_, fun msg hmsg => ?_, fun msg hmsg => ?_, fun cmd hcmd => ?_,
    fun cmd hcmd => ?_⟩
  · have hsplit : (s.ring true).sent = (cmds ++ (responses ++ s.artPot.seqCount :: (artPots ++
        s.filter.seqCount :: filters))) ++ s.bench.seqCount :: benches := by simp [hring]
    exact hordered.next_or_same hsplit (List.mem_map_of_mem hmsg)
  · have hsplit : (s.ring true).sent = (cmds ++ (responses ++ s.artPot.seqCount :: artPots)) ++
        s.filter.seqCount :: (filters ++ s.bench.seqCount :: benches) := by simp [hring]
    exact hordered.next_or_same hsplit (List.mem_append_left _ (List.mem_map_of_mem hmsg))
  · have hsplit : (s.ring true).sent = (cmds ++ responses) ++ s.artPot.seqCount ::
        (artPots ++ s.filter.seqCount :: (filters ++ s.bench.seqCount :: benches)) := by
      simp [hring]
    exact hordered.next_or_same hsplit (List.mem_append_left _ (List.mem_map_of_mem hmsg))
  · obtain ⟨l, l', hl⟩ := List.append_of_mem (List.mem_map_of_mem (f := (·.seqCount)) hcmd)
    have hsplit : (s.ring true).sent = (cmds ++ l) ++ cmd.seqCount :: (l' ++
        s.artPot.seqCount :: (artPots ++ s.filter.seqCount :: (filters ++
          s.bench.seqCount :: benches))) := by
      rw [hring, hresponses, hl]
      simp
    exact hordered.next_or_same hsplit (by simp)
  · have hmem : cmd.seqCount ∈ (s.ring true).sent := by
      rw [hring]
      exact List.mem_append_left _ (List.mem_map_of_mem hcmd)
    exact (hordered.mem_cases hmem).imp Eq.symm Eq.symm

/-- The first message. -/
theorem no_number_skipped_firstForward :
    ∃ msg ∈ (follow (step (wiring ArtPot.realLibm)) firstForward start).toArtPot,
      Follows (follow (step (wiring ArtPot.realLibm)) firstForward start).artPot.seqCount
        msg.seqCount := by
  have hwaits : (follow (step (wiring ArtPot.realLibm)) firstForward start).toArtPot ≠ [] :=
    List.ne_nil_of_length_pos (by decide +kernel)
  obtain ⟨msg, hmsg⟩ := List.exists_mem_of_ne_nil _ hwaits
  exact ⟨msg, hmsg, (no_number_skipped (reaches_follow
    (allSteps_of_forall (by simp [firstForward, Act.IsRestart]) _) (by decide +kernel))).2.2.1
    msg hmsg⟩

/-! ### One message at a time -/

/-- A controller dies with a message. -/
def Act.IsDeath : Act N → Prop
  | .filterDies | .artPotDies => True
  | _ => False

/-- What is between BenchMarker and the answer. -/
def Net.pending (s : Net N) : ℕ := s.toFilter.length + s.toArtPot.length + s.responses.length

/-- BenchMarker waits for exactly what is under way. -/
structure Balanced (s : Net N) : Prop where
  pending : s.pending = if s.bench.waitingResponse then 1 else 0
  preReads : s.bench.waitingResponse = true → s.bench.preReads = 0

/-- What BenchMarker waits for was lost. -/
structure Lost (s : Net N) : Prop where
  waiting : s.bench.waitingResponse = true
  pending : s.pending = 0
  preReads : s.bench.preReads = 0

theorem Balanced.step (h : Balanced s) (hs : s' ∈ CommandLoop.step w s act)
    (hdeath : ¬ act.IsDeath) : Balanced s' := by
  have hpending := h.pending
  cases effect_of_step hs with
  | odometry | ranger | command | waypoints | filterRestart | artPotRestart =>
    exact ⟨h.pending, h.preReads⟩
  | preRead _ hpre =>
    refine ⟨h.pending, fun hwait => ?_⟩
    have := h.preReads hwait
    omega
  | drop _ hpre => exact ⟨h.pending, fun _ => hpre⟩
  | forward _ hpre hwait =>
    refine ⟨?_, fun _ => hpre⟩
    simp only [Net.pending, hwait, List.length_append, List.length_singleton] at hpending ⊢
    simp only [Bool.false_eq_true, if_false, if_true] at hpending ⊢
    omega
  | response hmsg hpre =>
    refine ⟨?_, fun _ => hpre⟩
    simp only [Net.pending, hmsg, List.length_cons, Bool.false_eq_true, if_false] at hpending ⊢
    split_ifs at hpending
    omega
  | filter hmsg | artPot hmsg =>
    refine ⟨?_, h.preReads⟩
    rw [← hpending]
    simp only [Net.pending, hmsg, List.length_append, List.length_cons, List.length_nil]
    omega
  | filterDeath | artPotDeath => exact absurd trivial hdeath

/-- A message is lost for good. -/
theorem Lost.step (h : Lost s) (hs : s' ∈ CommandLoop.step w s act) :
    Lost s' ∧ s'.toTranslator <:+ s.toTranslator := by
  have hpending := h.pending
  cases effect_of_step hs with
  | odometry | ranger | waypoints | filterRestart | artPotRestart | drop =>
    exact ⟨⟨h.waiting, h.pending, h.preReads⟩, List.suffix_rfl⟩
  | command hmsg => exact ⟨⟨h.waiting, h.pending, h.preReads⟩, by simp [hmsg]⟩
  | preRead _ hpre => exact absurd h.preReads hpre.ne'
  | forward _ _ hwait => exact Bool.noConfusion (hwait.symm.trans h.waiting)
  | response hmsg | filter hmsg | artPot hmsg | filterDeath hmsg | artPotDeath hmsg =>
    simp [Net.pending, hmsg] at hpending

omit [LinearOrder N] in
theorem balanced_start : Balanced (start : Net N) := ⟨rfl, fun h => Bool.noConfusion h⟩

/-- A message is passed on, or its answer is. -/
def Act.IsAnswer : Act N → Prop
  | .filterTakesData | .artPotTakesData | .benchTakesResponse => True
  | _ => False

/-- A state that the answer leads to. -/
def Answered (w : Wiring N) (s : Net N) : Prop :=
  ∃ t, Reaches (CommandLoop.step w) (fun _ act => act.IsAnswer) s t ∧ t.bench.waitingResponse = false

theorem Answered.before (h : Answered w s') (act : Act N) (hact : act.IsAnswer)
    (hs : s' ∈ step w s act) : Answered w s := by
  obtain ⟨t, ht, hdone⟩ := h
  have hfirst : Reaches (CommandLoop.step w) (fun _ act => act.IsAnswer) s s' :=
    .tail .refl hact hs
  exact ⟨t, hfirst.trans ht, hdone⟩

theorem answered_of_response (hpre : s.bench.preReads = 0) (h : s.responses ≠ []) :
    Answered w s := by
  obtain ⟨msg, rest, hmsg⟩ := List.exists_cons_of_ne_nil h
  have hs : { s with
      bench := (s.bench.takeResponse msg).1
      responses := rest
      toTranslator := s.toTranslator ++ (s.bench.takeResponse msg).2 } ∈
      step w s .benchTakesResponse := by
    simp [step, hmsg, hpre]
  exact ⟨_, .tail (a := .benchTakesResponse) .refl trivial hs, rfl⟩

theorem answered_of_toArtPot (hpre : s.bench.preReads = 0) (h : s.toArtPot ≠ []) :
    Answered w s := by
  obtain ⟨msg, rest, hmsg⟩ := List.exists_cons_of_ne_nil h
  obtain ⟨ranges, dist, theta, hmovCmds⟩ :=
    ArtPot.movCmds_takeData w.libm w.artPotSends s.artPot msg
  have hs : { s with
      artPot := (ArtPot.takeData w.libm w.artPotPipes w.ix s.artPot msg).1
      toArtPot := rest
      responses := s.responses ++
        (ArtPot.takeData w.libm w.artPotPipes w.ix s.artPot msg).2.movCmds } ∈
      step w s .artPotTakesData := by
    simp [step, hmsg]
  have hanswer : s.responses ++
      (ArtPot.takeData w.libm w.artPotPipes w.ix s.artPot msg).2.movCmds ≠ [] := by
    simp [hmovCmds]
  refine Answered.before ?_ .artPotTakesData trivial hs
  exact answered_of_response hpre hanswer

theorem answered_of_toFilter (hpre : s.bench.preReads = 0) (h : s.toFilter ≠ []) :
    Answered w s := by
  obtain ⟨msg, rest, hmsg⟩ := List.exists_cons_of_ne_nil h
  have hs : { s with
      filter := (Filter.takeData w.filterPipes w.filterPipeCount msg).1
      toFilter := rest
      toArtPot := s.toArtPot ++
        (Filter.takeData w.filterPipes w.filterPipeCount msg).2 w.filterOut } ∈
      step w s .filterTakesData := by
    simp [step, hmsg]
  have hpassed : s.toArtPot ++
      (Filter.takeData w.filterPipes w.filterPipeCount msg).2 w.filterOut ≠ [] := by
    simp [takeData_filterOut]
  refine Answered.before ?_ .filterTakesData trivial hs
  exact answered_of_toArtPot hpre hpassed

theorem Balanced.answered (h : Balanced s) (hwait : s.bench.waitingResponse = true) :
    Answered w s := by
  have hpre := h.preReads hwait
  have hpending := h.pending
  rw [if_pos hwait, Net.pending] at hpending
  by_cases hfilter : s.toFilter = []
  · by_cases hartPot : s.toArtPot = []
    · refine answered_of_response hpre fun hnone => ?_
      simp [hfilter, hartPot, hnone] at hpending
    · exact answered_of_toArtPot hpre hartPot
  · exact answered_of_toFilter hpre hfilter

/-- **One response.** In every order of steps in which no controller dies with a message, with
Filter and ArtPot being restarted at any time: BenchMarker waits for exactly what is under way, so
that there is never more than one message or answer, and the answer can always arrive. -/
theorem one_response (h : Reaches (step w) (fun _ act => ¬ act.IsDeath) start s) :
    Balanced s ∧ (s.bench.waitingResponse = true → Answered w s) := by
  have hbalanced : Balanced s :=
    h.invariant (I := Balanced) balanced_start fun _ _ _ ht hdeath hu => ht.step hu hdeath
  exact ⟨hbalanced, hbalanced.answered⟩

/-- The first message can be answered. -/
theorem one_response_firstForward :
    Balanced (follow (step (wiring ArtPot.realLibm)) firstForward start) ∧
      Answered (wiring ArtPot.realLibm)
        (follow (step (wiring ArtPot.realLibm)) firstForward start) :=
  (one_response (reaches_follow (allSteps_of_forall (by simp [firstForward, Act.IsDeath]) _)
    (by decide +kernel))).imp_right fun h => h (by decide +kernel)

/-- What a controller that dies takes with it was all that was under way. -/
theorem Balanced.death (h : Balanced s) (hs : s' ∈ CommandLoop.step w s act)
    (hdeath : act.IsDeath) : Lost s' ∧ s'.toTranslator = s.toTranslator := by
  have hpending := h.pending
  cases effect_of_step hs with
  | filterDeath hmsg | artPotDeath hmsg =>
    simp only [Net.pending, hmsg, List.length_cons] at hpending
    split_ifs at hpending with hwait
    · exact ⟨⟨hwait, by simp only [Net.pending]; omega, h.preReads hwait⟩, rfl⟩
    · omega
  | _ => exact hdeath.elim

theorem Lost.not_death (h : Lost s) (hs : s' ∈ CommandLoop.step w s act) : ¬ act.IsDeath := by
  have hpending := h.pending
  cases effect_of_step hs with
  | filterDeath hmsg | artPotDeath hmsg => simp [Net.pending, hmsg] at hpending
  | _ => exact id

theorem balanced_or_lost (h : Reaches (step w) (fun _ _ => True) start s) :
    Balanced s ∨ Lost s := by
  refine h.invariant (I := fun s => Balanced s ∨ Lost s) (.inl balanced_start) ?_
  rintro t a u (ht | ht) - hu
  · by_cases hdeath : a.IsDeath
    · exact .inr (ht.death hu hdeath).1
    · exact .inl (ht.step hu hdeath)
  · exact .inr (ht.step hu).1

/-- **A lost response.** When a controller dies with a message, in every run from there on
BenchMarker goes on waiting, nothing is passed on to Filter again, and the robot gets no command
but those that were on their way to Translator already. -/
theorem lost_response (h : Reaches (step w) (fun _ _ => True) start s) (hs : s' ∈ step w s act)
    (hdeath : act.IsDeath) (ht : Reaches (step w) (fun _ _ => True) s' t) :
    Lost t ∧ t.toTranslator <:+ s.toTranslator := by
  have hbalanced : Balanced s :=
    (balanced_or_lost h).resolve_right fun hlost => hlost.not_death hs hdeath
  obtain ⟨hlost, hsame⟩ := hbalanced.death hs hdeath
  refine ht.invariant (I := fun t => Lost t ∧ t.toTranslator <:+ s.toTranslator)
    ⟨hlost, hsame ▸ List.suffix_rfl⟩ ?_
  rintro t a u ⟨hlost, hsuffix⟩ - hu
  obtain ⟨hlost', hsuffix'⟩ := hlost.step hu
  exact ⟨hlost', hsuffix'.trans hsuffix⟩

/-- ArtPot dies with the first message. -/
theorem lost_response_firstForward : ∃ s' ∈ step (wiring ArtPot.realLibm)
    (follow (step (wiring ArtPot.realLibm)) firstForward start) .artPotDies, Lost s' := by
  obtain ⟨s', hs'⟩ := Option.isSome_iff_exists.mp (show (step (wiring ArtPot.realLibm)
    (follow (step (wiring ArtPot.realLibm)) firstForward start) .artPotDies).isSome
      from by decide +kernel)
  exact ⟨s', hs', (lost_response (reaches_follow (allSteps_true _ _) (by decide +kernel)) hs'
    trivial .refl).1⟩

/-! ### The robot -/

/-- The velocities of a command. -/
def Bounded (msg : MovCmd ℝ) : Prop := ArtPot.Drives (msg.velCmd 0) (msg.velCmd 1)

/-- **Bounds of the robot.** On exact reals, in every order of steps, with controllers being
restarted and messages being lost: what `DoOneUpdate` puts on the robot is in bounds, whatever the
ranger, the odometry and the planner say. -/
theorem robot_bounds {w : Wiring ℝ} {s : Net ℝ} (hlibm : w.libm = ArtPot.realLibm)
    (h : Reaches (step w) (fun _ _ => True) start s) : ∀ msg ∈ s.toTranslator,
      ArtPot.Drives (s.translator.doOneUpdate msg).2.1 (s.translator.doOneUpdate msg).2.2 := by
  have hbounded : (∀ msg ∈ s.responses, Bounded msg) ∧ ∀ msg ∈ s.toTranslator, Bounded msg := by
    refine h.invariant (I := fun s => (∀ msg ∈ s.responses, Bounded msg) ∧
      ∀ msg ∈ s.toTranslator, Bounded msg) ⟨by simp [start], by simp [start]⟩ ?_
    rintro t a u ⟨hresponses, hcommands⟩ - hu
    cases effect_of_step hu with
    | command hmsg =>
      exact ⟨hresponses, fun msg hmem => hcommands msg (hmsg ▸ List.mem_cons_of_mem _ hmem)⟩
    | response hmsg =>
      rw [hmsg, List.forall_mem_cons] at hresponses
      exact ⟨hresponses.2,
        List.forall_mem_append.mpr ⟨hcommands, List.forall_mem_singleton.mpr hresponses.1⟩⟩
    | @artPot msg rest a cmd _ _ hcmd =>
      obtain ⟨ranges, dist, theta, rfl⟩ := hcmd
      refine ⟨List.forall_mem_append.mpr ⟨hresponses, List.forall_mem_singleton.mpr ?_⟩, hcommands⟩
      rw [hlibm]
      exact ArtPot.drives_velCmd ranges dist theta
    | _ => exact ⟨hresponses, hcommands⟩
  exact hbounded.2

/-- The first command. -/
theorem robot_bounds_firstForward : ∃ msg ∈ (follow (step (wiring ArtPot.realLibm))
    (firstForward ++ [.artPotTakesData, .benchTakesResponse]) start).toTranslator,
      ArtPot.Drives (msg.velCmd 0) (msg.velCmd 1) := by
  have hwaits : (follow (step (wiring ArtPot.realLibm))
      (firstForward ++ [.artPotTakesData, .benchTakesResponse]) start).toTranslator ≠ [] :=
    List.ne_nil_of_length_pos (by decide +kernel)
  obtain ⟨msg, hmsg⟩ := List.exists_mem_of_ne_nil _ hwaits
  exact ⟨msg, hmsg, robot_bounds rfl (reaches_follow (allSteps_true _ _) (by decide +kernel))
    msg hmsg⟩

end S3RES.CommandLoop
