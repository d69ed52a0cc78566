import S3RES.CommTypes.SerialPipe
import S3RES.Foundations.StepSystem
import S3RES.Voter.Replicas

/-!
# The fd server

`src/fd_server.c` and `src/fd_client.c`: how a replica process gets its pipes. `startReplicas`
forks all processes before it accepts the first connection, so any of them may be served any
slot. `pids_belong`: when it is done, the process whose pid is stored in a slot is the one that
got the pipes of that slot.

`ends` says which kernel object a descriptor of the voter refers to, and `Process.table` the same
of a process. A message that carries descriptors carries these objects. The kernel gives them
numbers that are not in use, and none of them 0; which ones is up to the action. A process
connects once, so that a connection is named by the process at its other end; a call that fails
ends the program, apart from `fork`, behind which the slot is left without a process.
-/

namespace S3RES.FdServer

open Loop StepSystem

variable {ε : Type*}

/-! ### Messages -/

/-- `convertVoteToTyped`. -/
def convertVoteToTyped (extPipes : ℕ → VotePipe) (pipeCount : ℕ) : List TypedPipe :=
  (List.range pipeCount).map fun i =>
    ⟨commToEnum (cString (extPipes i).repInfo), (extPipes i).fdIn, (extPipes i).fdOut⟩

/-- The message of `sendFDS`, with the kernel objects it carries. -/
structure Message (ε : Type*) where
  pipes : List TypedPipe
  pinnedCpu : ℤ
  priority : ℤ
  rights : List ε

/-- The descriptor `sendFDS` puts into the array for a pipe. -/
def sentFd (pipe : VotePipe) : ℕ := if pipe.fdIn ≠ 0 then pipe.fdIn else pipe.fdOut

/-- `sendFDS`. -/
def sendFDS (ends : ℕ → ε) (pipes : ℕ → VotePipe) (pipeCount : ℕ) (pinnedCpu priority : ℤ) :
    Message ε where
  pipes := convertVoteToTyped pipes pipeCount
  pinnedCpu := pinnedCpu
  priority := priority
  rights := (List.range pipeCount).map fun i => ends (sentFd (pipes i))

/-- `requestFDS` puts the new number of a pipe where the old one was. -/
def recoverFd (pipe : TypedPipe) (fd : ℕ) : TypedPipe :=
  if pipe.fdIn ≠ 0 then { pipe with fdIn := fd } else { pipe with fdOut := fd }

/-- `requestFDS`, when the descriptors were given the numbers `fds`. -/
def requestFDS (pipes : List TypedPipe) (fds : List ℕ) : List TypedPipe :=
  List.zipWith recoverFd pipes fds

/-- The kernel enters objects under new numbers. -/
def install : List ℕ → List ε → (ℕ → Option ε) → ℕ → Option ε
  | fd :: fds, e :: es, table => install fds es (Function.update table fd (some e))
  | _, _, table => table

/-! ### Processes -/

/-- Where a replica process stands in `connectRecvFDS`. -/
inductive Stage (ε : Type*)
  /-- Before `connect`. -/
  | connecting
  /-- In `requestFDS`, with what was sent to it. -/
  | requesting (inbox : List (Message ε))
  /-- Behind it. -/
  | replying
  /-- Behind the `write`, with what the voter has yet to read. -/
  | running (outbox : List ℤ)

/-- A replica process. -/
structure Process (ε : Type*) where
  stage : Stage ε
  /-- `pipe_count`, from the arguments. -/
  pipeCount : ℕ
  pipes : List TypedPipe
  pinnedCpu : ℤ
  priority : ℤ
  table : ℕ → Option ε

/-! ### `startReplicas` -/

/-- The slots behind `createPipes`, and the descriptors that are open. -/
structure Slots where
  num : ℕ
  pipeCount : ℕ
  reps : ℕ → Replica
  fds : List ℕ
  count : ∀ i < num, (reps i).pipeCount = pipeCount

/-- `initReplicas`. -/
def initReplicas (priority : ℤ) (num : ℕ) (r : (ℕ → Replica) × List ℕ) : (ℕ → Replica) × List ℕ :=
  loop (fun index r =>
    let t := initReplica (r.1 index) index priority r.2
    (Function.update r.1 index t.1, t.2)) num r

/-- `createPipes` for all slots. -/
def createAllPipes (extPipes : ℕ → VotePipe) (pipeCount num : ℕ) (r : (ℕ → Replica) × List ℕ) :
    (ℕ → Replica) × List ℕ :=
  loop (fun index r =>
    let t := createPipes extPipes pipeCount (r.1 index) r.2
    (Function.update r.1 index t.1, t.2)) num r

/-- Where the voter stands in `startReplicas`. -/
inductive Point
  /-- In `forkReplicas`, before slot `index`. -/
  | fork (index : ℕ)
  /-- Before `accept` for slot `i`. -/
  | accept (i : ℕ)
  /-- Before `sendFDS` to process `q`. -/
  | send (i q : ℕ)
  /-- Before the `read` of the pid of process `q`. -/
  | readPid (i q : ℕ)
  /-- `startReplicas` has returned. -/
  | done
  deriving DecidableEq

structure State (ε : Type*) where
  point : Point
  /-- The field `pid` of the slots. -/
  pids : ℕ → ℤ
  procs : ℕ → Option (Process ε)
  /-- The connections that wait to be accepted. -/
  backlog : List ℕ

/-- The actions. -/
inductive Act
  /-- The voter acts. A process it forks gets the number `q`; `fork` fails if there is none. -/
  | voter (q : Option ℕ)
  /-- Process `q` connects. -/
  | connect (q : ℕ)
  /-- Process `q` receives descriptors under the numbers `fds`. -/
  | receive (q : ℕ) (fds : List ℕ)
  /-- Process `q` writes its pid. -/
  | reply (q : ℕ)

/-- The process that is forked for slot `index`: it inherits the open descriptors. -/
def forked (c : Slots) (ends : ℕ → ε) (index : ℕ) : Process ε where
  stage := .connecting
  pipeCount := (c.reps index).pipeCount
  pipes := []
  pinnedCpu := 0
  priority := 0
  table fd := if fd ∈ c.fds then some (ends fd) else none

/-- The message for slot `i`. -/
def message (c : Slots) (ends : ℕ → ε) (i : ℕ) : Message ε :=
  sendFDS ends (c.reps i).repPipes (c.reps i).pipeCount (c.reps i).pinnedCpu (c.reps i).priority

/-- The actions of the voter. -/
def main (c : Slots) (ends : ℕ → ε) (s : State ε) (q : Option ℕ) : Option (State ε) :=
  match s.point with
  | .fork index =>
    if index < c.num then
      match q with
      | some q =>
        if s.procs q = none then
          some { s with
            point := .fork (index + 1)
            pids := Function.update s.pids index q
            procs := Function.update s.procs q (some (forked c ends index)) }
        else none
      | none =>
        some { s with point := .fork (index + 1), pids := Function.update s.pids index (-1) }
    else some { s with point := .accept 0 }
  | .accept i =>
    if i < c.num then
      match s.backlog with
      | q :: backlog => some { s with point := .send i q, backlog := backlog }
      | [] => none
    else some { s with point := .done }
  | .send i q =>
    match s.procs q with
    | some proc =>
      match proc.stage with
      | .requesting inbox =>
        some { s with
          point := .readPid i q
          procs := Function.update s.procs q
            (some { proc with stage := .requesting (inbox ++ [message c ends i]) }) }
      | _ => none
    | none => none
  | .readPid i q =>
    match s.procs q with
    | some proc =>
      match proc.stage with
      | .running (pid :: outbox) =>
        some { s with
          point := .accept (i + 1)
          pids := Function.update s.pids i pid
          procs := Function.update s.procs q (some { proc with stage := .running outbox }) }
      | _ => none
    | none => none
  | .done => none

/-- The actions of process `q`. -/
def client (q : ℕ) (proc : Process ε) : Act → Option (Process ε)
  | .receive _ fds =>
    match proc.stage with
    | .requesting (m :: _) =>
      if m.pipes.length = proc.pipeCount ∧ fds.length = m.rights.length ∧ fds.Nodup ∧
          ∀ fd ∈ fds, fd ≠ 0 ∧ proc.table fd = none then
        some { proc with
          stage := .replying
          pipes := requestFDS m.pipes fds
          pinnedCpu := m.pinnedCpu
          priority := m.priority
          table := install fds m.rights proc.table }
      else none
    | _ => none
  | .reply _ =>
    match proc.stage with
    | .replying => some { proc with stage := .running [(q : ℤ)] }
    | _ => none
  | _ => none

/-- The step function. -/
def step (c : Slots) (ends : ℕ → ε) (s : State ε) : Act → Option (State ε)
  | .voter q => main c ends s q
  | .connect q =>
    match s.procs q with
    | some proc =>
      match proc.stage with
      | .connecting =>
        some { s with
          procs := Function.update s.procs q (some { proc with stage := .requesting [] })
          backlog := s.backlog ++ [q] }
      | _ => none
    | none => none
  | .receive q fds =>
    match s.procs q with
    | some proc =>
      (client q proc (.receive q fds)).map fun proc =>
        { s with procs := Function.update s.procs q (some proc) }
    | none => none
  | .reply q =>
    match s.procs q with
    | some proc =>
      (client q proc (.reply q)).map fun proc =>
        { s with procs := Function.update s.procs q (some proc) }
    | none => none

/-- The state behind `createPipes`. -/
def start : State ε where
  point := .fork 0
  pids _ := -1
  procs _ := none
  backlog := []

/-! ### What a process gets -/

/-- A pipe with exactly one end set, and a name of a type. -/
structure Sendable (pipe : VotePipe) : Prop where
  oneEnd : pipe.fdIn ≠ 0 ∧ pipe.fdOut = 0 ∨ pipe.fdIn = 0 ∧ pipe.fdOut ≠ 0
  type : messageT (commToEnum (cString pipe.repInfo)) = cString pipe.repInfo

/-- A typed pipe is of the type and the direction of a vote pipe, and its descriptor refers to
the same kernel object. -/
def Matches (ends : ℕ → ε) (table : ℕ → Option ε) (pipe : VotePipe) (typed : TypedPipe) : Prop :=
  messageT typed.type = cString pipe.repInfo ∧ ∃ fd : ℕ, fd ≠ 0 ∧
    (pipe.fdIn ≠ 0 ∧ typed.fdIn = fd ∧ typed.fdOut = 0 ∧ table fd = some (ends pipe.fdIn) ∨
      pipe.fdOut ≠ 0 ∧ typed.fdIn = 0 ∧ typed.fdOut = fd ∧ table fd = some (ends pipe.fdOut))

/-- The process has the pipes, the CPU and the priority of the slot. -/
structure Belongs (ends : ℕ → ε) (rep : Replica) (proc : Process ε) : Prop where
  count : proc.pipes.length = rep.pipeCount
  pipes : ∀ p < rep.pipeCount, ∃ typed, proc.pipes[p]? = some typed ∧
    Matches ends proc.table (rep.repPipes p) typed
  pinnedCpu : proc.pinnedCpu = rep.pinnedCpu
  priority : proc.priority = rep.priority

/-- New numbers refer to the objects in their order. -/
theorem install_getElem {fds : List ℕ} {rights : List ε} (table : ℕ → Option ε)
    (hlength : fds.length = rights.length) (hnodup : fds.Nodup) {p fd : ℕ} {e : ε}
    (hfd : fds[p]? = some fd) (he : rights[p]? = some e) :
    install fds rights table fd = some e := by
  have hkeep : ∀ {fds : List ℕ} {rights : List ε} (table : ℕ → Option ε) {fd : ℕ}, fd ∉ fds →
      install fds rights table fd = table fd := by
    intro fds
    induction fds with
    | nil => exact fun _ _ _ => rfl
    | cons a fds ih =>
      intro rights table fd hfd
      obtain ⟨hne, hfd⟩ := not_or.mp (mt List.mem_cons.mpr hfd)
      cases rights with
      | nil => rfl
      | cons e rights => rw [install, ih _ hfd, Function.update_of_ne hne]
  induction fds generalizing rights table p with
  | nil => simp at hfd
  | cons a fds ih =>
    cases rights with
    | nil => simp at he
    | cons e' rights =>
      obtain ⟨ha, hnodup⟩ := List.nodup_cons.mp hnodup
      rw [install]
      cases p with
      | zero =>
        simp only [List.getElem?_cons_zero, Option.some.injEq] at hfd he
        subst hfd he
        rw [hkeep _ ha, Function.update_self]
      | succ p =>
        rw [List.getElem?_cons_succ] at hfd he
        exact ih _ (by simpa using hlength) hnodup hfd he

/-- **What `requestFDS` makes of a message of `sendFDS`.** -/
theorem matches_recoverFd {pipe : VotePipe} {ends : ℕ → ε} {table : ℕ → Option ε} {fd : ℕ}
    (h : Sendable pipe) (hfd : fd ≠ 0) (htable : table fd = some (ends (sentFd pipe))) :
    Matches ends table pipe
      (recoverFd ⟨commToEnum (cString pipe.repInfo), pipe.fdIn, pipe.fdOut⟩ fd) := by
  rcases h.oneEnd with ⟨hin, hout⟩ | ⟨hin, hout⟩
  · have hin' : (pipe.fdIn : ℤ) ≠ 0 := by exact_mod_cast hin
    rw [recoverFd, if_pos hin']
    rw [sentFd, if_pos hin] at htable
    exact ⟨h.type, fd, hfd, .inl ⟨hin, rfl, by simp [hout], htable⟩⟩
  · have hin' : ¬ (pipe.fdIn : ℤ) ≠ 0 := by simp [hin]
    rw [recoverFd, if_neg hin']
    rw [sentFd, if_neg (not_not.mpr hin)] at htable
    exact ⟨h.type, fd, hfd, .inr ⟨hout, by simp [hin], rfl, htable⟩⟩

theorem belongs_receive {c : Slots} {ends : ℕ → ε} {i : ℕ} {proc proc' : Process ε} {fds : List ℕ}
    {q : ℕ} (hstage : proc.stage = .requesting [message c ends i])
    (hsendable : ∀ p < (c.reps i).pipeCount, Sendable ((c.reps i).repPipes p))
    (hproc : proc' ∈ client q proc (.receive q fds)) :
    proc'.stage = .replying ∧ Belongs ends (c.reps i) proc' := by
  simp only [client, hstage, Option.mem_def, Option.ite_none_right_eq_some,
    Option.some.injEq] at hproc
  obtain ⟨⟨-, hlength, hnodup, hfree⟩, rfl⟩ := hproc
  have hcount : fds.length = (c.reps i).pipeCount := by
    simpa [message, sendFDS] using hlength
  refine ⟨rfl, ?_, fun p hp => ?_, rfl, rfl⟩
  · simp [requestFDS, message, sendFDS, convertVoteToTyped, hcount]
  · have hp' : p < fds.length := by omega
    have hfd : fds[p]? = some fds[p] := List.getElem?_eq_getElem hp'
    refine ⟨recoverFd ⟨commToEnum (cString ((c.reps i).repPipes p).repInfo),
      ((c.reps i).repPipes p).fdIn, ((c.reps i).repPipes p).fdOut⟩ fds[p], ?_, ?_⟩
    · simp [requestFDS, message, sendFDS, convertVoteToTyped, hp, hp']
    · refine matches_recoverFd (hsendable p hp) (hfree _ (List.getElem_mem hp')).1 ?_
      refine install_getElem _ hlength hnodup hfd ?_
      simp [message, sendFDS, hp]

/-! ### Runs -/

/-- The number of slots that have been served. -/
def Point.served (c : Slots) : Point → ℕ
  | .fork _ => 0
  | .accept i | .send i _ | .readPid i _ => i
  | .done => c.num

/-- What holds between the actions. -/
structure Inv (c : Slots) (ends : ℕ → ε) (s : State ε) : Prop where
  backlog : ∀ q ∈ s.backlog, ∃ proc, s.procs q = some proc ∧ proc.stage = .requesting []
  nodup : s.backlog.Nodup
  /-- Only the process that is being served has a message or has not replied to one. -/
  active : ∀ q proc, s.procs q = some proc →
    (proc.stage = .replying ∨ ∃ m l, proc.stage = .requesting (m :: l)) →
    ∃ i, s.point = .readPid i q
  served : ∀ j < s.point.served c, ∃ (q : ℕ) (proc : Process ε), s.pids j = q ∧
    s.procs q = some proc ∧ proc.stage = .running [] ∧ Belongs ends (c.reps j) proc
  distinct : ∀ j < s.point.served c, ∀ j' < s.point.served c, s.pids j = s.pids j' → j = j'
  sending : ∀ i q, s.point = .send i q → i < c.num ∧ q ∉ s.backlog ∧
    ∃ proc, s.procs q = some proc ∧ proc.stage = .requesting []
  reading : ∀ i q, s.point = .readPid i q → i < c.num ∧ q ∉ s.backlog ∧
    ∃ proc, s.procs q = some proc ∧ (proc.stage = .requesting [message c ends i] ∨
      (proc.stage = .replying ∨ proc.stage = .running [(q : ℤ)]) ∧ Belongs ends (c.reps i) proc)

section Steps

variable {c : Slots} {ends : ℕ → ε} {s t : State ε} {i q : ℕ} {proc : Process ε}

theorem inv_start (c : Slots) (ends : ℕ → ε) : Inv c ends (start : State ε) where
  backlog _ hq := absurd hq List.not_mem_nil
  nodup := List.nodup_nil
  active _ _ hq := absurd hq (by simp [start])
  served _ hj := absurd hj (Nat.not_lt_zero _)
  distinct _ hj := absurd hj (Nat.not_lt_zero _)
  sending _ _ hpoint := absurd hpoint (by simp [start])
  reading _ _ hpoint := absurd hpoint (by simp [start])

/-- A process is forked. -/
theorem Inv.fork {index : ℕ} (h : Inv c ends s) (hpoint : s.point = .fork index)
    (hfresh : s.procs q = none) (pids : ℕ → ℤ) :
    Inv c ends { s with
      point := .fork (index + 1)
      pids := pids
      procs := Function.update s.procs q (some (forked c ends index)) } where
  backlog q' hq' := by
    obtain ⟨proc, hproc, hstage⟩ := h.backlog q' hq'
    have hne : q' ≠ q := by
      rintro rfl
      simp [hfresh] at hproc
    exact ⟨proc, (Function.update_of_ne hne _ _).trans hproc, hstage⟩
  nodup := h.nodup
  active q' proc hproc hstage := by
    rcases eq_or_ne q' q with rfl | hne
    · have heq : forked c ends index = proc := by simpa using hproc
      simp [← heq, forked] at hstage
    · obtain ⟨i, hi⟩ := h.active q' proc ((Function.update_of_ne hne _ _).symm.trans hproc) hstage
      simp [hpoint] at hi
  served _ hj := absurd hj (Nat.not_lt_zero _)
  distinct _ hj := absurd hj (Nat.not_lt_zero _)
  sending _ _ hsend := absurd hsend (by simp)
  reading _ _ hread := absurd hread (by simp)

/-- The voter goes on to the next slot, where no process is being served. -/
theorem Inv.move (h : Inv c ends s) (point : Point) (hread : ∀ i q, s.point ≠ .readPid i q)
    (hserved : point.served c ≤ s.point.served c) (hsend' : ∀ i q, point ≠ .send i q)
    (hread' : ∀ i q, point ≠ .readPid i q) : Inv c ends { s with point := point } where
  backlog := h.backlog
  nodup := h.nodup
  active q proc hproc hstage := by
    obtain ⟨i, hi⟩ := h.active q proc hproc hstage
    exact absurd hi (hread i q)
  served j hj := h.served j (hj.trans_le hserved)
  distinct j hj j' hj' := h.distinct j (hj.trans_le hserved) j' (hj'.trans_le hserved)
  sending i q hpoint := absurd hpoint (hsend' i q)
  reading i q hpoint := absurd hpoint (hread' i q)

/-- A connection is accepted. -/
theorem Inv.accept {backlog : List ℕ} (h : Inv c ends s) (hpoint : s.point = .accept i)
    (hi : i < c.num) (hbacklog : s.backlog = q :: backlog) :
    Inv c ends { s with point := .send i q, backlog := backlog } := by
  have hserved : s.point.served c = i := by rw [hpoint]; rfl
  obtain ⟨hq, hnodup⟩ := List.nodup_cons.mp (hbacklog ▸ h.nodup)
  have hmem : ∀ q' ∈ backlog, q' ∈ s.backlog := fun q' hq' => hbacklog ▸ List.mem_cons_of_mem _ hq'
  refine ⟨fun q' hq' => h.backlog q' (hmem q' hq'), hnodup, fun q' proc hproc hstage => ?_,
    fun j hj => h.served j (hserved ▸ hj),
    fun j hj j' hj' => h.distinct j (hserved ▸ hj) j' (hserved ▸ hj'), ?_, ?_⟩
  · obtain ⟨i', hi'⟩ := h.active q' proc hproc hstage
    simp [hpoint] at hi'
  · rintro i' q' hsend
    obtain ⟨rfl, rfl⟩ := Point.send.inj hsend
    exact ⟨hi, hq, h.backlog q (hbacklog ▸ List.mem_cons_self)⟩
  · exact fun i' q' hread => absurd hread (by simp)

/-- The message is sent. -/
theorem Inv.send (h : Inv c ends s) (hpoint : s.point = .send i q) {proc' : Process ε}
    (hstage : proc'.stage = .requesting [message c ends i]) :
    Inv c ends { s with
      point := .readPid i q, procs := Function.update s.procs q (some proc') } := by
  have hserved : s.point.served c = i := by rw [hpoint]; rfl
  obtain ⟨hi, hq, proc, hproc, hempty⟩ := h.sending i q hpoint
  refine ⟨fun q' hq' => ?_, h.nodup, fun q' proc₂ hproc₂ hstage₂ => ?_, fun j hj => ?_,
    fun j hj j' hj' => h.distinct j (hserved ▸ hj) j' (hserved ▸ hj'),
    fun i' q' hsend => absurd hsend (by simp), ?_⟩
  · have hne : q' ≠ q := fun heq => hq (heq ▸ hq')
    obtain ⟨proc₂, hproc₂, hstage₂⟩ := h.backlog q' hq'
    exact ⟨proc₂, (Function.update_of_ne hne _ _).trans hproc₂, hstage₂⟩
  · rcases eq_or_ne q' q with rfl | hne
    · exact ⟨i, rfl⟩
    · obtain ⟨i', hi'⟩ := h.active q' proc₂ ((Function.update_of_ne hne _ _).symm.trans hproc₂)
        hstage₂
      simp [hpoint] at hi'
  · obtain ⟨q', proc₂, hpid, hproc₂, hstage₂, hbelongs⟩ := h.served j (hserved ▸ hj)
    have hne : q' ≠ q := by
      rintro rfl
      obtain rfl : proc₂ = proc := by simpa [hproc₂] using hproc
      simp [hempty] at hstage₂
    exact ⟨q', proc₂, hpid, (Function.update_of_ne hne _ _).trans hproc₂, hstage₂, hbelongs⟩
  · rintro i' q' hread
    obtain ⟨rfl, rfl⟩ := Point.readPid.inj hread
    exact ⟨hi, hq, proc', Function.update_self .., .inl hstage⟩

/-- The pid is read. -/
theorem Inv.readPid {pid : ℤ} {outbox : List ℤ} (h : Inv c ends s)
    (hpoint : s.point = .readPid i q) (hproc : s.procs q = some proc)
    (hstage : proc.stage = .running (pid :: outbox)) :
    Inv c ends { s with
      point := .accept (i + 1)
      pids := Function.update s.pids i pid
      procs := Function.update s.procs q (some { proc with stage := .running outbox }) } := by
  have hserved : s.point.served c = i := by rw [hpoint]; rfl
  obtain ⟨hi, hq, proc', hproc', hcase⟩ := h.reading i q hpoint
  obtain rfl : proc = proc' := by simpa [hproc] using hproc'
  -- it has replied with its own number
  obtain ⟨⟨rfl, rfl⟩, hbelongs⟩ : (pid = (q : ℤ) ∧ outbox = []) ∧ Belongs ends (c.reps i) proc := by
    rcases hcase with hrequest | ⟨hreply | hrun, hbelongs⟩
    · simp [hstage] at hrequest
    · simp [hstage] at hreply
    · exact ⟨by simpa [hstage] using hrun, hbelongs⟩
  -- it was not served before
  have hother : ∀ j < i, ∃ (q' : ℕ) (proc₂ : Process ε), q' ≠ q ∧ s.pids j = q' ∧
      s.procs q' = some proc₂ ∧ proc₂.stage = .running [] ∧ Belongs ends (c.reps j) proc₂ := by
    intro j hj
    obtain ⟨q', proc₂, hpid, hproc₂, hstage₂, hbelongs₂⟩ := h.served j (hserved ▸ hj)
    refine ⟨q', proc₂, ?_, hpid, hproc₂, hstage₂, hbelongs₂⟩
    rintro rfl
    obtain rfl : proc₂ = proc := by simpa [hproc₂] using hproc
    simp [hstage] at hstage₂
  refine ⟨fun q' hq' => ?_, h.nodup, fun q' proc₂ hproc₂ hstage₂ => ?_, fun j hj => ?_,
    fun j hj j' hj' heq => ?_, fun i' q' hsend => absurd hsend (by simp),
    fun i' q' hread => absurd hread (by simp)⟩
  · have hne : q' ≠ q := fun heq => hq (heq ▸ hq')
    obtain ⟨proc₂, hproc₂, hstage₂⟩ := h.backlog q' hq'
    exact ⟨proc₂, (Function.update_of_ne hne _ _).trans hproc₂, hstage₂⟩
  · rcases eq_or_ne q' q with rfl | hne
    · have heq : { proc with stage := .running [] } = proc₂ := by simpa using hproc₂
      simp [← heq] at hstage₂
    · obtain ⟨i', hi'⟩ := h.active q' proc₂ ((Function.update_of_ne hne _ _).symm.trans hproc₂)
        hstage₂
      rw [hpoint] at hi'
      exact absurd (Point.readPid.inj hi').2.symm hne
  · rcases Nat.lt_succ_iff_lt_or_eq.mp hj with hlt | rfl
    · obtain ⟨q', proc₂, hne, hpid, hproc₂, hstage₂, hbelongs₂⟩ := hother j hlt
      exact ⟨q', proc₂, (Function.update_of_ne hlt.ne _ _).trans hpid,
        (Function.update_of_ne hne _ _).trans hproc₂, hstage₂, hbelongs₂⟩
    · refine ⟨q, { proc with stage := .running [] }, Function.update_self ..,
        Function.update_self .., rfl, ?_⟩
      exact ⟨hbelongs.count, hbelongs.pipes, hbelongs.pinnedCpu, hbelongs.priority⟩
  · have hnew : ∀ j < i, Function.update s.pids i (q : ℤ) j ≠ q := by
      intro j hj
      obtain ⟨q', -, hne, hpid, -⟩ := hother j hj
      rw [Function.update_of_ne hj.ne, hpid]
      exact_mod_cast hne
    have hself : Function.update s.pids i (q : ℤ) i = q := Function.update_self ..
    rcases Nat.lt_succ_iff_lt_or_eq.mp hj with hlt | rfl
    · rcases Nat.lt_succ_iff_lt_or_eq.mp hj' with hlt' | rfl
      · refine h.distinct j (hserved ▸ hlt) j' (hserved ▸ hlt') ?_
        simpa [Function.update_of_ne hlt.ne, Function.update_of_ne hlt'.ne] using heq
      · exact absurd (heq.trans hself) (hnew j hlt)
    · rcases Nat.lt_succ_iff_lt_or_eq.mp hj' with hlt' | rfl
      · exact absurd (heq.symm.trans hself) (hnew j' hlt')
      · rfl

/-- A process connects. -/
theorem Inv.connect (h : Inv c ends s) (hproc : s.procs q = some proc)
    (hstage : proc.stage = .connecting) :
    Inv c ends { s with
      procs := Function.update s.procs q (some { proc with stage := .requesting [] })
      backlog := s.backlog ++ [q] } := by
  -- nobody knows of it yet
  have hother : ∀ {q' : ℕ} {proc' : Process ε}, s.procs q' = some proc' →
      proc'.stage ≠ .connecting → q' ≠ q := by
    rintro q' proc' hproc' hne rfl
    obtain rfl : proc = proc' := by simpa [hproc] using hproc'
    exact hne hstage
  have hkeep : ∀ {q' : ℕ} {proc' : Process ε}, s.procs q' = some proc' →
      proc'.stage ≠ .connecting →
      Function.update s.procs q (some { proc with stage := .requesting [] }) q' = some proc' :=
    fun hproc' hne => (Function.update_of_ne (hother hproc' hne) _ _).trans hproc'
  have hq : q ∉ s.backlog := by
    intro hmem
    obtain ⟨proc', hproc', hstage'⟩ := h.backlog q hmem
    exact hother hproc' (by simp [hstage']) rfl
  refine ⟨fun q' hq' => ?_, ?_, fun q' proc₂ hproc₂ hstage₂ => ?_, fun j hj => ?_, h.distinct,
    fun i q' hsend => ?_, fun i q' hread => ?_⟩
  · rcases List.mem_append.mp hq' with hq' | hq'
    · obtain ⟨proc', hproc', hstage'⟩ := h.backlog q' hq'
      exact ⟨proc', hkeep hproc' (by simp [hstage']), hstage'⟩
    · obtain rfl : q' = q := List.mem_singleton.mp hq'
      exact ⟨_, Function.update_self .., rfl⟩
  · rw [List.nodup_append]
    refine ⟨h.nodup, List.nodup_singleton q, fun a ha b hb heq => hq ?_⟩
    rw [List.mem_singleton] at hb
    exact hb ▸ heq ▸ ha
  · rcases eq_or_ne q' q with rfl | hne
    · have heq : { proc with stage := .requesting [] } = proc₂ := by simpa using hproc₂
      simp [← heq] at hstage₂
    · exact h.active q' proc₂ ((Function.update_of_ne hne _ _).symm.trans hproc₂) hstage₂
  · obtain ⟨q', proc', hpid, hproc', hstage', hbelongs⟩ := h.served j hj
    exact ⟨q', proc', hpid, hkeep hproc' (by simp [hstage']), hstage', hbelongs⟩
  · obtain ⟨hi, hq', proc', hproc', hstage'⟩ := h.sending i q' hsend
    have hne := hother hproc' (by simp [hstage'])
    exact ⟨hi, by simp [hq', hne], proc', hkeep hproc' (by simp [hstage']), hstage'⟩
  · obtain ⟨hi, hq', proc', hproc', hcase⟩ := h.reading i q' hread
    have hstage' : proc'.stage ≠ .connecting := by
      rcases hcase with hstage' | ⟨hstage' | hstage', -⟩
      · simp [hstage']
      · simp [hstage']
      · simp [hstage']
    have hne := hother hproc' hstage'
    exact ⟨hi, by simp [hq', hne], proc', hkeep hproc' hstage', hcase⟩

/-- The process that is being served goes on, with what belongs to the slot. -/
theorem Inv.advance (h : Inv c ends s) (hpoint : s.point = .readPid i q) {proc' : Process ε}
    (hproc : s.procs q = some proc) (hstage : ∀ outbox, proc.stage = .running outbox → outbox ≠ [])
    (hstage' : proc'.stage = .replying ∨ proc'.stage = .running [(q : ℤ)])
    (hbelongs : Belongs ends (c.reps i) proc') :
    Inv c ends { s with procs := Function.update s.procs q (some proc') } := by
  obtain ⟨hi, hq, -⟩ := h.reading i q hpoint
  refine ⟨fun q' hq' => ?_, h.nodup, fun q' proc₂ hproc₂ hstage₂ => ?_, fun j hj => ?_, h.distinct,
    fun i' q' hsend => ?_, fun i' q' hread => ?_⟩
  · have hne : q' ≠ q := fun heq => hq (heq ▸ hq')
    obtain ⟨proc₂, hproc₂, hstage₂⟩ := h.backlog q' hq'
    exact ⟨proc₂, (Function.update_of_ne hne _ _).trans hproc₂, hstage₂⟩
  · rcases eq_or_ne q' q with rfl | hne
    · exact ⟨i, hpoint⟩
    · exact h.active q' proc₂ ((Function.update_of_ne hne _ _).symm.trans hproc₂) hstage₂
  · obtain ⟨q', proc₂, hpid, hproc₂, hstage₂, hbelongs₂⟩ := h.served j hj
    have hne : q' ≠ q := by
      rintro rfl
      obtain rfl : proc = proc₂ := by simpa [hproc] using hproc₂
      exact hstage _ hstage₂ rfl
    exact ⟨q', proc₂, hpid, (Function.update_of_ne hne _ _).trans hproc₂, hstage₂, hbelongs₂⟩
  · exact absurd (hpoint.symm.trans hsend) (by simp)
  · obtain ⟨rfl, rfl⟩ := Point.readPid.inj (hpoint.symm.trans hread)
    exact ⟨hi, hq, proc', Function.update_self .., .inr ⟨hstage', hbelongs⟩⟩

/-- The voter starts, accepts, sends and reads. -/
theorem Inv.main {q : Option ℕ} (h : Inv c ends s) (ht : t ∈ step c ends s (.voter q)) :
    Inv c ends t := by
  simp only [step, FdServer.main, Option.mem_def] at ht
  split at ht
  · rename_i index hpoint
    split at ht
    · split at ht
      · rename_i q
        split at ht
        · rename_i hfresh
          rw [Option.some.injEq] at ht
          subst ht
          exact h.fork hpoint hfresh _
        · simp at ht
      · rw [Option.some.injEq] at ht
        subst ht
        have hmove := h.move (.fork (index + 1)) (by simp [hpoint])
          (by simp [hpoint, Point.served]) (by simp) (by simp)
        exact ⟨hmove.backlog, hmove.nodup, hmove.active,
          fun _ hj => absurd hj (Nat.not_lt_zero _), fun _ hj => absurd hj (Nat.not_lt_zero _),
          hmove.sending, hmove.reading⟩
    · rw [Option.some.injEq] at ht
      subst ht
      exact h.move _ (by simp [hpoint]) (by simp [hpoint, Point.served]) (by simp) (by simp)
  · rename_i i hpoint
    split at ht
    · rename_i hi
      split at ht
      · rename_i q backlog hbacklog
        rw [Option.some.injEq] at ht
        subst ht
        exact h.accept hpoint hi hbacklog
      · simp at ht
    · rename_i hi
      rw [Option.some.injEq] at ht
      subst ht
      exact h.move _ (by simp [hpoint]) (by simpa [hpoint, Point.served] using hi) (by simp)
        (by simp)
  · rename_i i q hpoint
    obtain ⟨-, -, proc, hproc, hstage⟩ := h.sending i q hpoint
    simp only [hproc, hstage, Option.some.injEq] at ht
    subst ht
    exact h.send hpoint rfl
  · rename_i i q hpoint
    split at ht
    · rename_i proc hproc
      split at ht
      · rename_i pid outbox hstage
        rw [Option.some.injEq] at ht
        subst ht
        exact h.readPid hpoint hproc hstage
      · simp at ht
    · simp at ht
  · simp at ht

/-- A process takes the message of its slot. -/
theorem Inv.receive {q : ℕ} {fds : List ℕ} (hsendable : ∀ i < c.num, ∀ p < c.pipeCount,
    Sendable ((c.reps i).repPipes p)) (h : Inv c ends s) (ht : t ∈ step c ends s (.receive q fds)) :
    Inv c ends t := by
  simp only [step, Option.mem_def] at ht
  split at ht
  · rename_i proc hproc
    obtain ⟨proc', hproc', rfl⟩ := Option.map_eq_some_iff.mp ht
    -- only the process that is being served has a message
    cases hstage : proc.stage with
    | requesting inbox =>
      cases inbox with
      | nil => simp [client, hstage] at hproc'
      | cons m inbox =>
        obtain ⟨i, hpoint⟩ := h.active q proc hproc (.inr ⟨m, inbox, hstage⟩)
        obtain ⟨hi, -, proc₂, hproc₂, hcase⟩ := h.reading i q hpoint
        obtain rfl : proc = proc₂ := by simpa [hproc] using hproc₂
        have hmessage : proc.stage = .requesting [message c ends i] := by
          simpa [hstage] using hcase
        have hsendable' : ∀ p < (c.reps i).pipeCount, Sendable ((c.reps i).repPipes p) := by
          rw [c.count i hi]
          exact hsendable i hi
        obtain ⟨hreply, hbelongs⟩ := belongs_receive hmessage hsendable' hproc'
        exact h.advance hpoint hproc (by simp [hstage]) (.inl hreply) hbelongs
    | connecting | replying | running => simp [client, hstage] at hproc'
  · simp at ht

/-- A process sends its pid. -/
theorem Inv.reply {q : ℕ} (h : Inv c ends s) (ht : t ∈ step c ends s (.reply q)) :
    Inv c ends t := by
  simp only [step, Option.mem_def] at ht
  split at ht
  · rename_i proc hproc
    obtain ⟨proc', hproc', rfl⟩ := Option.map_eq_some_iff.mp ht
    cases hstage : proc.stage with
    | replying =>
      simp only [client, hstage, Option.some.injEq] at hproc'
      subst hproc'
      obtain ⟨i, hpoint⟩ := h.active q proc hproc (.inl hstage)
      obtain ⟨-, -, proc₂, hproc₂, hcase⟩ := h.reading i q hpoint
      obtain rfl : proc = proc₂ := by simpa [hproc] using hproc₂
      have hbelongs : Belongs ends (c.reps i) proc := by simpa [hstage] using hcase
      exact h.advance hpoint hproc (by simp [hstage]) (.inr rfl)
        ⟨hbelongs.count, hbelongs.pipes, hbelongs.pinnedCpu, hbelongs.priority⟩
    | connecting | requesting | running => simp [client, hstage] at hproc'
  · simp at ht

/-- **One action.** -/
theorem inv_step {a : Act} (hsendable : ∀ i < c.num, ∀ p < c.pipeCount,
    Sendable ((c.reps i).repPipes p)) (h : Inv c ends s) (ht : t ∈ step c ends s a) :
    Inv c ends t := by
  cases a with
  | voter pid => exact h.main ht
  | connect q =>
    simp only [step, Option.mem_def] at ht
    split at ht
    · rename_i proc hproc
      split at ht
      · rename_i hstage
        rw [Option.some.injEq] at ht
        subst ht
        exact h.connect hproc hstage
      · simp at ht
    · simp at ht
  | receive q fds => exact h.receive hsendable ht
  | reply q => exact h.reply ht

end Steps

/-- **Pids and pipes belong together.** In whatever order the processes connect: when
`startReplicas` is done, the process whose pid a slot has is the one that got the pipes, the CPU
and the priority of the slot, and no two slots have one process. -/
theorem pids_belong {c : Slots} {ends : ℕ → ε} {s : State ε}
    (hsendable : ∀ i < c.num, ∀ p < c.pipeCount, Sendable ((c.reps i).repPipes p))
    (hreach : Reaches (step c ends) (fun _ _ => True) start s) (hdone : s.point = .done) :
    (∀ i < c.num, ∃ (q : ℕ) (proc : Process ε), s.pids i = q ∧ s.procs q = some proc ∧
      Belongs ends (c.reps i) proc) ∧
    ∀ i < c.num, ∀ j < c.num, s.pids i = s.pids j → i = j := by
  have hinv : Inv c ends s := hreach.invariant (inv_start c ends)
    fun _ _ _ h _ ht => inv_step hsendable h ht
  have hserved : s.point.served c = c.num := by rw [hdone]; rfl
  refine ⟨fun i hi => ?_, fun i hi j hj => hinv.distinct i (hserved ▸ hi) j (hserved ▸ hj)⟩
  obtain ⟨q, proc, hpid, hproc, -, hbelongs⟩ := hinv.served i (hserved ▸ hi)
  exact ⟨q, proc, hpid, hproc, hbelongs⟩

/-! ### The slots of `startReplicas` -/

theorem pipeCount_createPipes (extPipes : ℕ → VotePipe) (n : ℕ) {rep : Replica} (fds : List ℕ)
    (hrep : rep.pipeCount = 0) : (createPipes extPipes n rep fds).1.pipeCount = n := by
  refine loop_induction (fun k (r : Replica × List ℕ) => r.1.pipeCount = k) hrep fun p _ r _ => ?_
  simp only [createPipe]
  split <;> rfl

/-- A pipe for the replica has one end, if 0 is open, and the name of the external pipe. -/
theorem repPipes_createPipes (extPipes : ℕ → VotePipe) (n : ℕ) (rep : Replica) {fds : List ℕ}
    (h0 : 0 ∈ fds) {p : ℕ} (hp : p < n) :
    let pipe := (createPipes extPipes n rep fds).1.repPipes p
    pipe.repInfo = (extPipes p).repInfo ∧
      (pipe.fdIn ≠ 0 ∧ pipe.fdOut = 0 ∨ pipe.fdIn = 0 ∧ pipe.fdOut ≠ 0) := by
  have hloop := loop_induction (n := n) (s := (rep, fds))
    (f := fun p r => createPipe (extPipes p) p r)
    (fun k (r : Replica × List ℕ) => fds ⊆ r.2 ∧ ∀ p < k,
      (r.1.repPipes p).repInfo = (extPipes p).repInfo ∧
        ((r.1.repPipes p).fdIn ≠ 0 ∧ (r.1.repPipes p).fdOut = 0 ∨
          (r.1.repPipes p).fdIn = 0 ∧ (r.1.repPipes p).fdOut ≠ 0))
    ⟨fun _ => id, fun p hp => absurd hp p.not_lt_zero⟩ ?_
  · exact hloop.2 p hp
  · rintro k _ r ⟨hsub, hpipes⟩
    have hread : lowestFree r.2 ≠ 0 := fun h => lowestFree_not_mem r.2 (h ▸ hsub h0)
    have hwrite : lowestFree (lowestFree r.2 :: r.2) ≠ 0 := fun h =>
      lowestFree_not_mem _ (h ▸ List.mem_cons_of_mem _ (hsub h0))
    refine ⟨fun x hx => ?_, fun p hp => ?_⟩
    · rw [createPipe_snd]
      exact List.mem_cons_of_mem _ (List.mem_cons_of_mem _ (hsub hx))
    · rcases eq_or_ne p k with rfl | hpk
      · simp only [createPipe, pipeFds]
        split
        · exact ⟨by simp, .inl ⟨by simpa using hread, by simp⟩⟩
        · exact ⟨by simp, .inr ⟨by simp, by simpa using hwrite⟩⟩
      · have hkeep : (createPipe (extPipes k) k r).1.repPipes p = r.1.repPipes p := by
          simp only [createPipe]
          split
          · exact Function.update_of_ne hpk _ _
          · exact Function.update_of_ne hpk _ _
        rw [hkeep]
        exact hpipes p (by omega)

/-- What `initReplicas` leaves. -/
theorem initReplicas_spec (memory : ℕ → Replica) (priority : ℤ) (num : ℕ) (fds : List ℕ) :
    (0 ∈ fds → 0 ∈ (initReplicas priority num (memory, fds)).2) ∧
      ∀ i < num, ((initReplicas priority num (memory, fds)).1 i).pipeCount = 0 ∧
        ((initReplicas priority num (memory, fds)).1 i).priority = priority ∧
        ((initReplicas priority num (memory, fds)).1 i).pinnedCpu = i + 1 := by
  refine loop_induction (fun k (r : (ℕ → Replica) × List ℕ) => (0 ∈ fds → 0 ∈ r.2) ∧ ∀ i < k,
    (r.1 i).pipeCount = 0 ∧ (r.1 i).priority = priority ∧ (r.1 i).pinnedCpu = i + 1)
    ⟨id, fun i hi => absurd hi i.not_lt_zero⟩ ?_
  rintro k _ r ⟨hopen, hreps⟩
  refine ⟨fun h0 => mem_closePipes.mpr ⟨hopen h0, fun hheld => hheld.1 rfl⟩, fun i hi => ?_⟩
  rcases eq_or_ne i k with rfl | hik
  · simp [initReplica, controllerPin]
  · dsimp only
    rw [Function.update_of_ne hik]
    exact hreps i (by omega)

/-- What `createPipes` leaves in the slots that are to be filled. -/
theorem createAllPipes_spec (extPipes : ℕ → VotePipe) (n num : ℕ) (reps : ℕ → Replica)
    (fds : List ℕ) (hempty : ∀ i < num, (reps i).pipeCount = 0) : ∀ i < num,
      ∃ fds', (createAllPipes extPipes n num (reps, fds)).1 i =
        (createPipes extPipes n (reps i) fds').1 ∧ (0 ∈ fds → 0 ∈ fds') := by
  have hloop := loop_induction (n := num) (s := (reps, fds))
    (f := fun index r => (Function.update r.1 index (createPipes extPipes n (r.1 index) r.2).1,
      (createPipes extPipes n (r.1 index) r.2).2))
    (fun k (r : (ℕ → Replica) × List ℕ) => (0 ∈ fds → 0 ∈ r.2) ∧ (∀ i, k ≤ i → r.1 i = reps i) ∧
      ∀ i < k, ∃ fds', r.1 i = (createPipes extPipes n (reps i) fds').1 ∧ (0 ∈ fds → 0 ∈ fds'))
    ⟨id, fun _ _ => rfl, fun i hi => absurd hi i.not_lt_zero⟩ ?_
  · exact hloop.2.2
  · rintro k hk r ⟨hopen, hrest, hdone⟩
    refine ⟨fun h0 => ?_, fun i hi => ?_, fun i hi => ?_⟩
    · have hcount : (r.1 k).pipeCount = 0 := by rw [hrest k le_rfl, hempty k hk]
      exact (createPipes_wired extPipes n (hopen h0) hcount).2.1 (hopen h0)
    · have hik : i ≠ k := by omega
      exact (Function.update_of_ne hik _ _).trans (hrest i (by omega))
    · rcases Nat.lt_succ_iff_lt_or_eq.mp hi with hlt | rfl
      · obtain ⟨fds', hrep, hopen'⟩ := hdone i hlt
        exact ⟨fds', (Function.update_of_ne hlt.ne _ _).trans hrep, hopen'⟩
      · refine ⟨r.2, ?_, hopen⟩
        dsimp only
        rw [Function.update_self, hrest i le_rfl]

/-- `startReplicas` before it forks. -/
def slots (memory : ℕ → Replica) (num pipeCount : ℕ) (extPipes : ℕ → VotePipe) (priority : ℤ)
    (fds : List ℕ) : Slots where
  num := num
  pipeCount := pipeCount
  reps := (createAllPipes extPipes pipeCount num (initReplicas priority num (memory, fds))).1
  fds := (createAllPipes extPipes pipeCount num (initReplicas priority num (memory, fds))).2
  count i hi := by
    have hinit := (initReplicas_spec memory priority num fds).2
    obtain ⟨fds', hrep, -⟩ := createAllPipes_spec extPipes pipeCount num _
      (initReplicas priority num (memory, fds)).2 (fun i hi => (hinit i hi).1) i hi
    rw [hrep]
    exact pipeCount_createPipes extPipes pipeCount fds' (hinit i hi).1

/-- **Start-up.** Every slot can be sent, if 0 is open and the external pipes have names of types;
it has the CPU of its index and the priority it was given. -/
theorem slots_spec (memory : ℕ → Replica) (num pipeCount : ℕ) (extPipes : ℕ → VotePipe)
    (priority : ℤ) {fds : List ℕ} (h0 : 0 ∈ fds) (htype : ∀ p < pipeCount,
      messageT (commToEnum (cString (extPipes p).repInfo)) = cString (extPipes p).repInfo)
    {i : ℕ} (hi : i < num) :
    let rep := (slots memory num pipeCount extPipes priority fds).reps i
    (∀ p < pipeCount, Sendable (rep.repPipes p)) ∧ rep.pinnedCpu = i + 1 ∧
      rep.priority = priority := by
  obtain ⟨hopen, hinit⟩ := initReplicas_spec memory priority num fds
  obtain ⟨fds', hrep, hopen'⟩ := createAllPipes_spec extPipes pipeCount num _
    (initReplicas priority num (memory, fds)).2 (fun i hi => (hinit i hi).1) i hi
  have hslot : (slots memory num pipeCount extPipes priority fds).reps i =
      (createPipes extPipes pipeCount ((initReplicas priority num (memory, fds)).1 i) fds').1 :=
    hrep
  obtain ⟨-, hpriority, hcpu⟩ := hinit i hi
  dsimp only
  rw [hslot]
  refine ⟨fun p hp => ?_, ?_, ?_⟩
  · obtain ⟨hinfo, hend⟩ := repPipes_createPipes extPipes pipeCount
      ((initReplicas priority num (memory, fds)).1 i) (hopen' (hopen h0)) hp
    exact ⟨hend, by rw [hinfo]; exact htype p hp⟩
  · rw [createPipes_proj Replica.pinnedCpu (fun _ _ _ _ _ => rfl), hcpu]
  · rw [createPipes_proj Replica.priority (fun _ _ _ _ _ => rfl), hpriority]

/-! ### Two replicas that connect in the other order -/

/-- A pipe in and a pipe out. -/
def rangerPipes (p : ℕ) : VotePipe :=
  if p = 0 then ⟨"RANGE_POSE_DATA", 3, 0, true, 0, 0, fun _ => 0⟩
  else ⟨"MOV_CMD", 0, 4, true, 0, 0, fun _ => 0⟩

/-- The slots for two replicas. -/
def rangerSlots : Slots :=
  slots (fun _ => ⟨0, 0, 0, fun _ => ⟨"", 0, 0, false, 0, 0, fun _ => 0⟩, fun _ => 0,
    fun _ => ⟨"", 0, 0, false, 0, 0, fun _ => 0⟩⟩) 2 2 rangerPipes 25 [0, 1, 2, 3, 4]

/-- Process 101, forked for slot 1, connects first. -/
def otherOrder : List Act :=
  [.voter (some 100), .voter (some 101), .voter none, .connect 101, .connect 100, .voter none,
    .voter none, .receive 101 [20, 21], .reply 101, .voter none, .voter none, .voter none,
    .receive 100 [20, 21], .reply 100, .voter none, .voter none]

/-- It gets slot 0, and its pid is stored there. -/
theorem pids_belong_otherOrder :
    ∃ proc, (follow (step rangerSlots id) otherOrder start).procs 101 = some proc ∧
      Belongs id (rangerSlots.reps 0) proc := by
  have hsendable : ∀ i < rangerSlots.num, ∀ p < rangerSlots.pipeCount,
      Sendable ((rangerSlots.reps i).repPipes p) :=
    fun i hi => (slots_spec _ 2 2 rangerPipes 25 (by decide) (by decide +kernel) hi).1
  have hreach : Reaches (step rangerSlots id) (fun _ _ => True) start
      (follow (step rangerSlots id) otherOrder start) :=
    reaches_follow (allSteps_true _ _) (by decide +kernel)
  obtain ⟨q, proc, hpid, hproc, hbelongs⟩ :=
    (pids_belong hsendable hreach (by decide +kernel)).1 0 (by decide)
  have hpid' : (follow (step rangerSlots id) otherOrder start).pids 0 = 101 := by decide +kernel
  obtain rfl : q = 101 := by exact_mod_cast hpid.symm.trans hpid'
  exact ⟨proc, hproc, hbelongs⟩

end S3RES.FdServer
