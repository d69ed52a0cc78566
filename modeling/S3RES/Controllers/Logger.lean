import S3RES.CommTypes.MsgBuffer
import S3RES.Controllers.Driving
import S3RES.PipeArguments
import S3RES.Voter.Clock

/-!
# What Logger writes down

`logger.c` writes a file with a line for each set of range and pose data and with the messages that
other components send, such as those of `load.c`. Its pipe 0 is for the data, the others are for
messages. A message is one `write` of at most `PIPE_BUF` bytes, so it is on the pipe as a whole.

`logs_in_order`: in every order of steps, the messages of a pipe in the file are the first that were
sent on it, each as it was sent. The zero byte behind a string is not sent, so Logger prints each
message of Load together with what lies behind it in memory (`prints_behind`). `distances_add_up`:
on exact reals, each distance in the file is the velocity by the time since the last one.
-/

namespace S3RES.Logger

open StepSystem
open ArtPot (Libm poseX poseY realLibm)

variable {N : Type*}

/-! ### Lines -/

/-- `GOAL_X` and `GOAL_Y`. -/
def goalX : ℚ := 7

def goalY : ℚ := 7

/-- `prev_x` and `prev_y` at first. -/
def startX : ℚ := -7

def startY : ℚ := -7

/-- The line for one set of data. -/
structure Line (N : Type*) where
  min : N
  velocity : N
  distance : N
  timeThisRound : N
  x : N
  y : N
  seqCount : ℤ

/-- The globals of Logger. -/
structure Globals (N : Type*) where
  seqCount : ℤ
  ranges : Fin rangerCount → N
  pose : Fin 3 → N
  finished : Bool
  prevX : N
  prevY : N
  prevTime : ℕ
  timeElapsed : N

section Command

variable [Field N] [LinearOrder N]

/-- `diff_time` with a million cycles in place of one. -/
def seconds (current last : ℕ) : N :=
  if current > last then ((current - last : ℕ) : N) / (1000000 * (cpuMhz : N)) else 0

/-- How far the robot is from `x`, `y`. -/
def distanceTo (m : Libm N) (pose : Fin 3 → N) (x y : N) : N :=
  m.sqrt ((poseX pose - x) * (poseX pose - x) + (poseY pose - y) * (poseY pose - y))

/-- The nearest obstacle, where 1000 is approximately infinite. -/
def minRange (ranges : Fin rangerCount → N) : N :=
  (List.finRange rangerCount).foldl (fun min i => if ranges i < min then ranges i else min) 1000

/-- `command`, at the time `now`: the globals and the line that it writes. -/
def command (m : Libm N) (now : ℕ) (g : Globals N) : Globals N × List (Line N) :=
  let (g, lines) : Globals N × List (Line N) :=
    if distanceTo m g.pose goalX goalY < 1 then -- Robot stops short
      ({ g with finished := true }, [])
    else if g.prevTime = 0 then -- first cycle
      (g, [])
    else
      let distance := distanceTo m g.pose g.prevX g.prevY
      let timeThisRound := seconds now g.prevTime
      let timeElapsed := g.timeElapsed + timeThisRound
      let same := poseX g.pose = g.prevX ∧ poseY g.pose = g.prevY
      ({ g with timeElapsed := if same then timeElapsed else 0 },
        [⟨minRange g.ranges, if same then 0 else distance / timeElapsed, distance, timeThisRound,
          poseX g.pose, poseY g.pose, g.seqCount⟩])
  ({ g with prevTime := now, prevX := poseX g.pose, prevY := poseY g.pose }, lines)

/-- `commCopyRanger`. -/
def copyRanger (g : Globals N) (msg : RangePoseData N) : Globals N :=
  { g with seqCount := msg.seqCount, ranges := msg.ranges, pose := msg.pose }

/-! ### The loop -/

/-- What is written into the file: a line, or a message of a pipe, with `%s` for the bytes. -/
inductive Entry (N : Type*)
  | line (l : Line N)
  | message (pipe : ℕ) (bytes : Option (List UInt8))

/-- The pipes of Logger and the other ends of those for messages. -/
structure Wiring (N : Type*) where
  libm : Libm N
  pipeCount : ℕ
  pipes : ℕ → TypedPipe
  outs : ℕ → TypedPipe

/-- `PIPE_BUF`. -/
def pipeBuf : ℕ := 4096

structure State (N : Type*) where
  globals : Globals N
  /-- What is on pipe 0. -/
  data : List (RangePoseData N)
  /-- The bytes on the others. -/
  queue : ℕ → List UInt8
  /-- The pipes in `select_set` that have not been looked at. -/
  due : List ℕ
  file : List (Entry N)
  /-- The messages that were sent on each pipe at all. -/
  sent : ℕ → List (List UInt8)

def State.readable (s : State N) (i : ℕ) : Bool :=
  if i = 0 then !s.data.isEmpty else !(s.queue i).isEmpty

/-- The actions: another component writes, or Logger goes on. -/
inductive Act (N : Type*)
  | send (i : ℕ) (msg : MsgBuffer)
  | data (msg : RangePoseData N)
  | select
  | read (now : ℕ)

/-- The step function. -/
def step (w : Wiring N) (s : State N) : Act N → Option (State N)
  | .send i msg =>
    (commSendMsgBuffer (w.outs i) msg).bind fun bytes =>
      if bytes.length ≤ pipeBuf then
        some { s with
          queue := Function.update s.queue i (s.queue i ++ bytes)
          sent := Function.update s.sent i (s.sent i ++ [msg.content]) }
      else none
  | .data msg => some { s with data := s.data ++ [msg] }
  | .select =>
    if s.due = [] then some { s with due := (List.range w.pipeCount).filter s.readable } else none
  | .read now =>
    match s.due, s.data with
    | [], _ => none
    | 0 :: _, [] => none
    | 0 :: due, msg :: data =>
      let (globals, lines) := command w.libm now (copyRanger s.globals msg)
      some { s with globals, data, due, file := s.file ++ lines.map .line }
    | (i + 1) :: due, _ =>
      let received := commRecvMsgBuffer (w.pipes (i + 1)) ⟨0, none⟩ (s.queue (i + 1))
      some { s with
        queue := Function.update s.queue (i + 1) received.stream
        due
        file := if s.globals.finished then s.file
          else s.file ++ [.message (i + 1) received.msg.message] }

/-- `main` enters the loop. -/
def start : State N where
  globals := ⟨0, 0, 0, false, startX, startY, 0, 0⟩
  data := []
  queue _ := []
  due := []
  file := []
  sent _ := []

/-- What each step does. -/
inductive Effect (w : Wiring N) (s : State N) : Act N → State N → Prop
  | send {i : ℕ} {msg : MsgBuffer} {bytes : List UInt8}
      (hbytes : bytes ∈ commSendMsgBuffer (w.outs i) msg) :
      Effect w s (.send i msg) { s with
        queue := Function.update s.queue i (s.queue i ++ bytes)
        sent := Function.update s.sent i (s.sent i ++ [msg.content]) }
  | data (msg : RangePoseData N) : Effect w s (.data msg) { s with data := s.data ++ [msg] }
  | select (hdue : s.due = []) :
      Effect w s .select { s with due := (List.range w.pipeCount).filter s.readable }
  | command {now : ℕ} {due : List ℕ} {msg : RangePoseData N} {data : List (RangePoseData N)}
      (hdue : s.due = 0 :: due) (hdata : s.data = msg :: data) :
      Effect w s (.read now) { s with
        globals := (command w.libm now (copyRanger s.globals msg)).1
        data := data
        due := due
        file := s.file ++ (command w.libm now (copyRanger s.globals msg)).2.map .line }
  | message {now i : ℕ} {due : List ℕ} {received : ReceivedMsg} (hdue : s.due = i :: due)
      (hi : 0 < i) (hreceived : received = commRecvMsgBuffer (w.pipes i) ⟨0, none⟩ (s.queue i)) :
      Effect w s (.read now) { s with
        queue := Function.update s.queue i received.stream
        due := due
        file := if s.globals.finished then s.file
          else s.file ++ [.message i received.msg.message] }

theorem effect_of_step {w : Wiring N} {s s' : State N} {a : Act N} (hs : s' ∈ step w s a) :
    Effect w s a s' := by
  cases a with
  | send i msg =>
    obtain ⟨bytes, hbytes, hs⟩ := Option.bind_eq_some_iff.mp hs
    rw [Option.ite_none_right_eq_some] at hs
    obtain rfl := Option.some.inj hs.2
    exact .send hbytes
  | data msg =>
    obtain rfl := Option.some.inj hs
    exact .data msg
  | select =>
    rw [step, Option.mem_def, Option.ite_none_right_eq_some] at hs
    obtain rfl := Option.some.inj hs.2
    exact .select hs.1
  | read now =>
    rw [step, Option.mem_def] at hs
    split at hs
    · cases hs
    · cases hs
    · rename_i due msg data hdue hdata
      obtain rfl := Option.some.inj hs
      exact .command hdue hdata
    · rename_i i due hdue
      obtain rfl := Option.some.inj hs
      exact .message hdue i.succ_pos rfl

end Command

/-! ### Messages of Load -/

/-- `%d`. -/
def formatInt (n : ℤ) : List UInt8 := (if n < 0 then [45] else []) ++ decimal n.natAbs

/-- The text that `asprintf` makes in `perCyclePedestrian`. -/
def loadText (total elapsedTime : BitVec 32) : List UInt8 :=
  cString "Ped total: " ++ formatInt total.toInt ++ cString " in time " ++
    formatInt elapsedTime.toInt ++ cString "ms\n"

/-- The message that Load sends: the length is without the zero byte at the end. -/
def loadMessage (total elapsedTime : BitVec 32) : MsgBuffer where
  length := BitVec.ofNat 32 (loadText total elapsedTime).length
  message := some (loadText total elapsedTime ++ [0])

theorem zero_notMem_formatInt (n : ℤ) : 0 ∉ formatInt n := by
  rw [formatInt, List.mem_append, not_or]
  refine ⟨?_, fun h => ?_⟩
  · split_ifs <;> decide
  · exact absurd (digit_of_mem_decimal h).1 (by decide)

theorem zero_notMem_loadText (total elapsedTime : BitVec 32) : 0 ∉ loadText total elapsedTime := by
  have hwords : (0 : UInt8) ∉ cString "Ped total: " ∧ (0 : UInt8) ∉ cString " in time " ∧
      (0 : UInt8) ∉ cString "ms\n" := by decide
  simp only [loadText, List.mem_append, zero_notMem_formatInt, hwords.1, hwords.2.1, hwords.2.2,
    or_self, not_false_eq_true]

/-- What is sent ends before the zero byte. -/
theorem zero_notMem_content (total elapsedTime : BitVec 32) :
    0 ∉ (loadMessage total elapsedTime).content := by
  have hle : (BitVec.ofNat 32 (loadText total elapsedTime).length).toNat ≤
      (loadText total elapsedTime).length := by
    rw [BitVec.toNat_ofNat]
    exact Nat.mod_le _ _
  rw [MsgBuffer.content, loadMessage, Option.getD_some, List.take_append_of_le_length hle]
  exact fun h => zero_notMem_loadText total elapsedTime (List.mem_of_mem_take h)

/-- Two pipes, for data and for messages. -/
def loadWiring (m : Libm N) : Wiring N where
  libm := m
  pipeCount := 2
  pipes i := if i = 0 then ⟨.rangePoseData, 3, 0⟩ else ⟨.msgBuffer, 4, 0⟩
  outs i := if i = 0 then ⟨.rangePoseData, 0, 3⟩ else ⟨.msgBuffer, 0, 4⟩

/-! ### Messages -/

/-- What an entry is of pipe `i`. -/
def Entry.of (i : ℕ) : Entry N → Option (Option (List UInt8))
  | .line _ => none
  | .message pipe bytes => if pipe = i then some bytes else none

/-- The messages of pipe `i` in the file. -/
def State.logged (s : State N) (i : ℕ) : List (Option (List UInt8)) := s.file.filterMap (Entry.of i)

/-- The pipes behind the first are for messages. -/
def Connected (w : Wiring N) : Prop :=
  ∀ i < w.pipeCount, 0 < i → Sends .msgBuffer (w.outs i) ∧ Receives (w.pipes i)

instance (w : Wiring N) : Decidable (Connected w) :=
  inferInstanceAs (Decidable (∀ i < w.pipeCount, 0 < i → _))

/-- The messages of pipe `i` are in the file, or came when Logger was finished, or are still on the
pipe. -/
def Accounted (s : State N) (i : ℕ) : Prop :=
  ∃ kept dropped pending, s.sent i = kept ++ dropped ++ pending ∧ s.logged i = kept.map some ∧
    s.queue i = pending.flatMap frame ∧ (∀ content ∈ pending, content.length < 2 ^ 31) ∧
    (s.globals.finished = false → dropped = [])

/-- What holds between the steps. -/
structure Inv (w : Wiring N) (s : State N) : Prop where
  nodup : s.due.Nodup
  due : ∀ i ∈ s.due, i < w.pipeCount ∧ (0 < i → s.queue i ≠ [])
  accounted : ∀ i < w.pipeCount, 0 < i → Accounted s i

section Messages

variable {w : Wiring N} {s s' : State N} {a : Act N}

theorem filterMap_lines (i : ℕ) (lines : List (Line N)) :
    (lines.map Entry.line).filterMap (Entry.of i) = [] := by
  induction lines with
  | nil => rfl
  | cons l lines ih => exact ih

theorem Accounted.congr {i : ℕ} (h : Accounted s i) (hsent : s'.sent i = s.sent i)
    (hlogged : s'.logged i = s.logged i) (hqueue : s'.queue i = s.queue i)
    (hfinished : s'.globals.finished = false → s.globals.finished = false) : Accounted s' i := by
  obtain ⟨kept, dropped, pending, h₁, h₂, h₃, h₄, h₅⟩ := h
  exact ⟨kept, dropped, pending, hsent.trans h₁, hlogged.trans h₂, hqueue.trans h₃, h₄,
    fun h => h₅ (hfinished h)⟩

/-- The first message on the pipe is read. -/
theorem Accounted.message {i : ℕ} {received : ReceivedMsg} (h : Accounted s i)
    (hpipe : Receives (w.pipes i)) (hne : s.queue i ≠ [])
    (hreceived : received = commRecvMsgBuffer (w.pipes i) ⟨0, none⟩ (s.queue i))
    (hsent : s'.sent i = s.sent i) (hqueue : s'.queue i = received.stream)
    (hfinished : s'.globals.finished = s.globals.finished)
    (hfile : s'.file = if s.globals.finished then s.file
      else s.file ++ [.message i received.msg.message]) : Accounted s' i := by
  obtain ⟨kept, dropped, pending, h₁, h₂, h₃, h₄, h₅⟩ := h
  cases pending with
  | nil => exact absurd h₃ hne
  | cons content pending =>
    obtain ⟨hcontent, hrest⟩ := List.forall_mem_cons.mp h₄
    obtain ⟨hmsg, hstream⟩ := recv_frame hpipe hcontent ⟨0, none⟩ (pending.flatMap frame)
    rw [h₃, List.flatMap_cons] at hreceived
    rw [← hreceived] at hmsg hstream
    rw [hmsg] at hfile
    cases hfin : s.globals.finished with
    | false =>
      obtain rfl := h₅ hfin
      rw [hfin, if_neg Bool.false_ne_true] at hfile
      refine ⟨kept ++ [content], [], pending, ?_, ?_, hqueue.trans hstream, hrest, fun _ => rfl⟩
      · rw [hsent, h₁]
        simp
      · rw [State.logged, hfile, List.filterMap_append, ← State.logged, h₂]
        simp [Entry.of]
    | true =>
      rw [hfin, if_pos rfl] at hfile
      refine ⟨kept, dropped ++ [content], pending, ?_, ?_, hqueue.trans hstream, hrest, fun h => ?_⟩
      · rw [hsent, h₁]
        simp
      · rw [State.logged, hfile, ← State.logged, h₂]
      · rw [hfinished, hfin] at h
        cases h

variable [Field N]

theorem inv_start (w : Wiring N) : Inv w (start : State N) where
  nodup := List.nodup_nil
  due _ h := absurd h List.not_mem_nil
  accounted _ _ _ := ⟨[], [], [], rfl, rfl, rfl, by simp, fun _ => rfl⟩

variable [LinearOrder N]

theorem finished_command {m : Libm N} {now : ℕ} {g : Globals N}
    (h : (command m now g).1.finished = false) : g.finished = false := by
  simp only [command] at h
  split_ifs at h <;> exact h

theorem inv_step (hw : Connected w) (h : Inv w s) (hs : s' ∈ step w s a) : Inv w s' := by
  cases effect_of_step hs with
  | @send i msg bytes hbytes =>
    refine ⟨h.nodup, fun j hj => ⟨(h.due j hj).1, fun hpos => ?_⟩, fun j hj hpos => ?_⟩
    · rcases eq_or_ne j i with rfl | hji
      · simpa using fun hnil => absurd hnil ((h.due j hj).2 hpos)
      · simpa [hji] using (h.due j hj).2 hpos
    · rcases eq_or_ne j i with rfl | hji
      · obtain ⟨kept, dropped, pending, h₁, h₂, h₃, h₄, h₅⟩ := h.accounted j hj hpos
        obtain ⟨hlength, -, rfl⟩ := frame_of_send (hw j hj hpos).1 hbytes
        refine ⟨kept, dropped, pending ++ [msg.content], ?_, h₂, ?_, ?_, h₅⟩
        · simp [h₁]
        · simp [h₃]
        · exact List.forall_mem_append.mpr ⟨h₄, List.forall_mem_singleton.mpr hlength⟩
      · exact (h.accounted j hj hpos).congr (Function.update_of_ne hji _ _) rfl
          (Function.update_of_ne hji _ _) id
  | data msg => exact ⟨h.nodup, h.due, h.accounted⟩
  | select hdue =>
    refine ⟨List.nodup_range.filter _, fun i hi => ?_, h.accounted⟩
    obtain ⟨hrange, hreadable⟩ := List.mem_filter.mp hi
    refine ⟨List.mem_range.mp hrange, fun hpos => ?_⟩
    rw [State.readable, if_neg hpos.ne'] at hreadable
    simpa using hreadable
  | command hdue hdata =>
    have hnodup := h.nodup
    have hall := h.due
    rw [hdue] at hnodup hall
    refine ⟨hnodup.of_cons, fun i hi => hall i (List.mem_cons_of_mem _ hi), fun i hi hpos => ?_⟩
    refine (h.accounted i hi hpos).congr rfl ?_ rfl finished_command
    rw [State.logged, List.filterMap_append, filterMap_lines, List.append_nil, State.logged]
  | @message now i due received hdue hi hreceived =>
    have hnodup := h.nodup
    have hall := h.due
    rw [hdue, List.nodup_cons] at hnodup
    rw [hdue, List.forall_mem_cons] at hall
    refine ⟨hnodup.2, fun j hj => ⟨(hall.2 j hj).1, fun hpos => ?_⟩, fun j hj hpos => ?_⟩
    · have hji : j ≠ i := fun heq => hnodup.1 (heq ▸ hj)
      simpa [hji] using (hall.2 j hj).2 hpos
    · rcases eq_or_ne j i with rfl | hji
      · exact (h.accounted j hj hpos).message (hw j hj hpos).2 (hall.1.2 hi) hreceived rfl
          (Function.update_self ..) rfl rfl
      · refine (h.accounted j hj hpos).congr rfl ?_ (Function.update_of_ne hji _ _) id
        rw [State.logged, State.logged]
        split
        · rfl
        · simp [Entry.of, hji.symm]

end Messages

/-- The first message of Load is read. -/
def firstMessage : List (Act ℝ) := [.send 1 (loadMessage 3 250), .select, .read 1]

section Load

variable [Field N] [LinearOrder N] {w : Wiring N} {s : State N}

/-- Only Load sends messages. -/
def ByLoad (_ : State N) (a : Act N) : Prop :=
  ∀ i msg, a = .send i msg → ∃ total elapsedTime, msg = loadMessage total elapsedTime

/-- **Load is printed with what lies behind.** In every order of steps in which Load sends the
messages, whatever it has found: no message that Logger writes into the file with `%s` holds a zero
byte. -/
theorem prints_behind (hw : Connected w) (h : Reaches (step w) ByLoad start s) {i : ℕ}
    (hi : i < w.pipeCount) (hpos : 0 < i) : ∀ message ∈ s.logged i,
      ∃ bytes, message = some bytes ∧ 0 ∉ bytes := by
  have hsent : ∀ i, ∀ content ∈ s.sent i, 0 ∉ content := by
    refine h.invariant (I := fun s => ∀ i, ∀ content ∈ s.sent i, 0 ∉ content)
      (fun _ _ h => absurd h List.not_mem_nil) fun t a u ht hload hu => ?_
    cases effect_of_step hu with
    | @send i msg bytes hbytes =>
      obtain ⟨total, elapsedTime, rfl⟩ := hload i msg rfl
      intro j
      dsimp only
      rcases eq_or_ne j i with rfl | hji
      · rw [Function.update_self]
        exact List.forall_mem_append.mpr
          ⟨ht j, List.forall_mem_singleton.mpr (zero_notMem_content total elapsedTime)⟩
      · rw [Function.update_of_ne hji]
        exact ht j
    | _ => exact ht
  have hinv : Inv w s := h.invariant (inv_start w) fun _ _ _ ht _ hu => inv_step hw ht hu
  obtain ⟨kept, dropped, pending, hall, hlogged, -⟩ := hinv.accounted i hi hpos
  intro message hmessage
  rw [hlogged, List.mem_map] at hmessage
  obtain ⟨bytes, hbytes, rfl⟩ := hmessage
  refine ⟨bytes, rfl, hsent i bytes ?_⟩
  rw [hall]
  exact List.mem_append_left _ (List.mem_append_left _ hbytes)

end Load

theorem prints_behind_firstMessage :
    ∃ bytes, some bytes ∈ (follow (step (loadWiring realLibm)) firstMessage start).logged 1 ∧
      0 ∉ bytes := by
  have hload : ∀ a ∈ firstMessage, ∀ s, ByLoad s a := by
    rintro a ha s i msg rfl
    simp only [firstMessage, List.mem_cons, List.not_mem_nil, or_false, reduceCtorEq,
      Act.send.injEq] at ha
    exact ⟨3, 250, ha.2⟩
  have hmem : some (loadText 3 250) ∈
      (follow (step (loadWiring realLibm)) firstMessage start).logged 1 := List.mem_singleton_self _
  obtain ⟨bytes, heq, hzero⟩ := prints_behind (i := 1) (by decide)
    (reaches_follow (allSteps_of_forall hload start) rfl) (by decide) (by decide) _ hmem
  exact ⟨bytes, heq ▸ hmem, hzero⟩

/-! ### Distances -/

/-- The line that an entry is. -/
def Entry.line? : Entry N → Option (Line N)
  | .line l => some l
  | .message _ _ => none

def State.lines (s : State N) : List (Line N) := s.file.filterMap Entry.line?

section Distances

variable [Field N] [DecidableEq N]

/-- The time of the lines since the last one with a velocity. -/
def waited (lines : List (Line N)) : N :=
  lines.foldl (fun time l => if l.velocity = 0 then time + l.timeThisRound else 0) 0

/-- Each distance of the file is the velocity by the time since the last one. -/
def AddsUp (lines : List (Line N)) : Prop :=
  ∀ before l after, lines = before ++ l :: after →
    l.distance = l.velocity * (waited before + l.timeThisRound)

/-- The clock goes on. -/
def Later (s : State N) : Act N → Prop
  | .read now => s.globals.prevTime < now
  | _ => True

end Distances

section Real

variable {w : Wiring ℝ} {s : State ℝ}

theorem seconds_pos {current last : ℕ} (h : last < current) : 0 < (seconds current last : ℝ) := by
  have hmhz : (0 : ℝ) < (cpuMhz : ℝ) := by norm_num [cpuMhz]
  have hsub : (0 : ℝ) < ((current - last : ℕ) : ℝ) := by
    exact_mod_cast Nat.sub_pos_of_lt h
  rw [seconds, if_pos h]
  positivity

theorem distanceTo_eq_zero_iff (pose : Fin 3 → ℝ) (x y : ℝ) :
    distanceTo realLibm pose x y = 0 ↔ poseX pose = x ∧ poseY pose = y := by
  have hx := mul_self_nonneg (poseX pose - x)
  have hy := mul_self_nonneg (poseY pose - y)
  rw [distanceTo, realLibm, Real.sqrt_eq_zero (add_nonneg hx hy),
    add_eq_zero_iff_of_nonneg hx hy, mul_self_eq_zero, mul_self_eq_zero, sub_eq_zero, sub_eq_zero]

/-- A line behind others. -/
theorem AddsUp.concat {lines : List (Line ℝ)} {l : Line ℝ} (h : AddsUp lines)
    (hl : l.distance = l.velocity * (waited lines + l.timeThisRound)) : AddsUp (lines ++ [l]) := by
  intro before l' after heq
  rcases List.eq_nil_or_concat after with rfl | ⟨after, last, rfl⟩
  · obtain ⟨rfl, hlast⟩ := List.append_inj' heq rfl
    obtain rfl := List.singleton_inj.mp hlast
    exact hl
  · rw [List.concat_eq_append, ← List.cons_append, ← List.append_assoc] at heq
    exact h before l' after (List.append_inj' heq rfl).1

/-- What `command` writes. -/
theorem command_cases (m : Libm ℝ) (now : ℕ) (g : Globals ℝ) :
    ((command m now g).2 = [] ∧ (command m now g).1.timeElapsed = g.timeElapsed) ∨
      ∃ l, (command m now g).2 = [l] ∧ l.timeThisRound = seconds now g.prevTime ∧
        l.distance = distanceTo m g.pose g.prevX g.prevY ∧
        ((poseX g.pose = g.prevX ∧ poseY g.pose = g.prevY) ∧ l.velocity = 0 ∧
            (command m now g).1.timeElapsed = g.timeElapsed + l.timeThisRound ∨
          ¬ (poseX g.pose = g.prevX ∧ poseY g.pose = g.prevY) ∧
            l.velocity = l.distance / (g.timeElapsed + l.timeThisRound) ∧
            (command m now g).1.timeElapsed = 0) := by
  rw [command]
  by_cases hgoal : distanceTo m g.pose goalX goalY < 1
  · rw [if_pos hgoal]
    exact .inl ⟨rfl, rfl⟩
  · rw [if_neg hgoal]
    by_cases hfirst : g.prevTime = 0
    · rw [if_pos hfirst]
      exact .inl ⟨rfl, rfl⟩
    · rw [if_neg hfirst]
      refine .inr ⟨_, rfl, rfl, rfl, ?_⟩
      by_cases hsame : poseX g.pose = g.prevX ∧ poseY g.pose = g.prevY
      · exact .inl ⟨hsame, if_pos hsame, if_pos hsame⟩
      · exact .inr ⟨hsame, if_neg hsame, if_neg hsame⟩

/-- What `command` keeps track of is the time since the last velocity. -/
structure Timed (s : State ℝ) : Prop where
  addsUp : AddsUp s.lines
  elapsed : s.globals.timeElapsed = waited s.lines
  nonneg : 0 ≤ s.globals.timeElapsed

theorem Timed.congr {s' : State ℝ} (h : Timed s) (hlines : s'.lines = s.lines)
    (hglobals : s'.globals = s.globals) : Timed s' where
  addsUp := hlines ▸ h.addsUp
  elapsed := by rw [hlines, hglobals, h.elapsed]
  nonneg := hglobals ▸ h.nonneg

theorem Timed.command {now : ℕ} {msg : RangePoseData ℝ} {s' : State ℝ} (h : Timed s)
    (hlater : s.globals.prevTime < now)
    (hglobals : s'.globals = (command realLibm now (copyRanger s.globals msg)).1)
    (hlines : s'.lines = s.lines ++ (command realLibm now (copyRanger s.globals msg)).2) :
    Timed s' := by
  have hseconds : 0 < (seconds now s.globals.prevTime : ℝ) := seconds_pos hlater
  have hpos := add_pos_of_nonneg_of_pos h.nonneg hseconds
  rcases command_cases realLibm now (copyRanger s.globals msg) with
    ⟨hnone, htime⟩ | ⟨l, hl, hround, hdistance,
      ⟨hsame, hvelocity, htime⟩ | ⟨hmoved, hvelocity, htime⟩⟩
  · rw [hnone, List.append_nil] at hlines
    rw [← hglobals] at htime
    exact ⟨hlines ▸ h.addsUp, by rw [htime, hlines]; exact h.elapsed, htime.symm ▸ h.nonneg⟩
  · rw [hl] at hlines
    rw [← hglobals] at htime
    have hwaited : waited (s.lines ++ [l]) = waited s.lines + l.timeThisRound := by
      rw [waited, List.foldl_append, ← waited, List.foldl_cons, List.foldl_nil, if_pos hvelocity]
    refine ⟨?_, ?_, ?_⟩
    · rw [hlines]
      refine h.addsUp.concat ?_
      rw [hvelocity, zero_mul, hdistance, distanceTo_eq_zero_iff]
      exact hsame
    · rw [hlines, hwaited, htime, ← h.elapsed]
      rfl
    · rw [htime, hround]
      exact hpos.le
  · rw [hl] at hlines
    rw [← hglobals] at htime
    have hne : l.velocity ≠ 0 := by
      rw [hvelocity, hdistance, hround]
      exact div_ne_zero (mt (distanceTo_eq_zero_iff _ _ _).mp hmoved) hpos.ne'
    have hwaited : waited (s.lines ++ [l]) = 0 := by
      rw [waited, List.foldl_append, List.foldl_cons, List.foldl_nil, if_neg hne]
    refine ⟨?_, ?_, ?_⟩
    · rw [hlines]
      refine h.addsUp.concat ?_
      rw [hvelocity, ← h.elapsed, hround]
      exact (div_mul_cancel₀ _ hpos.ne').symm
    · rw [hlines, hwaited, htime]
    · rw [htime]

/-- **The distances add up.** On exact reals, in every order of steps in which the clock goes on:
each distance in the file is the velocity of its line by the time of that line and of those before
it, back to the last one with a velocity. -/
theorem distances_add_up (hlibm : w.libm = realLibm) (h : Reaches (step w) Later start s) :
    AddsUp s.lines := by
  have hstart : Timed start := by
    refine ⟨fun before l after heq => ?_, rfl, le_rfl⟩
    exact absurd heq (by simp [State.lines, start])
  refine (h.invariant (I := Timed) hstart fun t a u ht hlater hu => ?_).addsUp
  cases effect_of_step hu with
  | @command now due msg data hdue hdata =>
    rw [hlibm]
    refine ht.command hlater rfl ?_
    simp [State.lines, List.filterMap_append, List.filterMap_map, Function.comp_def, Entry.line?]
  | @message now i due received hdue hi hreceived =>
    refine ht.congr ?_ rfl
    rw [State.lines]
    split
    · rfl
    · simp [State.lines, Entry.line?]
  | _ => exact ht.congr rfl rfl

end Real

/-- The robot goes from the first pose to the second in a second. -/
def twoPoses : List (Act ℝ) :=
  [.data ⟨0, 0, ![0, 0, 0]⟩, .select, .read 1, .data ⟨1, 0, ![3, 4, 0]⟩, .select, .read 2301000001]

theorem distances_add_up_twoPoses :
    AddsUp (follow (step (loadWiring realLibm)) twoPoses start).lines := by
  have hsecond : 1 < 2301000001 := by norm_num
  refine distances_add_up (w := loadWiring realLibm) rfl (reaches_follow ⟨trivial, ?_⟩ rfl)
  rintro _ ⟨⟩
  refine ⟨trivial, ?_⟩
  rintro _ ⟨⟩
  refine ⟨Nat.one_pos, ?_⟩
  rintro _ ⟨⟩
  refine ⟨trivial, ?_⟩
  rintro _ ⟨⟩
  refine ⟨trivial, ?_⟩
  rintro _ ⟨⟩
  exact ⟨hsecond, fun _ _ => trivial⟩

end S3RES.Logger
