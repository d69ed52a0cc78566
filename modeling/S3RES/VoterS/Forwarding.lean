import S3RES.VoterS.Machine

/-!
# What VoterS forwards

The bytes of the messages written to an out pipe are forwarded, or held, or unread, in this order
(`Complete`), as long as no restart discards what is unread. `forwarded_iff`: this holds in every
state of a run in which every message is read before the replica is restarted, and what is unread
when `select` is called is forwarded before the next `waitpid`; behind a restart with something
unread it holds nowhere. `malloc` gives the start index that the first message of a pipe finds,
which has to lie inside the buffer.
-/

namespace S3RES.VoterS

open Loop StepSystem

variable {c : Config} {s t : State} {p : ℕ} {a : Act}

/-- What was written to out pipe `p` and not lost. -/
def State.kept (s : State) (p : ℕ) : List UInt8 := s.extOut p ++ (s.vot p).content ++ s.queue p

/-- Every message is forwarded or on its way, exactly once and in order. -/
def Complete (c : Config) (s : State) : Prop :=
  ∀ p, c.IsOut p → s.kept p = (s.written p).flatten

/-- When the replica is restarted, nothing it wrote is unread. -/
def ReadBeforeRestart (c : Config) (s : State) : Act → Prop
  | .voter _ =>
    s.point = .check → s.process = .exited → ∀ p < c.pipeCount, c.IsOut p → s.queue p = []
  | _ => True

instance : ∀ a : Act, Decidable (ReadBeforeRestart c s a)
  | .voter _ => inferInstanceAs (Decidable
      (s.point = .check → s.process = .exited → ∀ p < c.pipeCount, c.IsOut p → s.queue p = []))
  | .write _ _ | .readInput _ _ | .exit | .externalWrite _ _ => inferInstanceAs (Decidable True)

/-- The pipe that is voted on. -/
def Point.voting : Point → Option ℕ
  | .vote p _ => some p
  | _ => none

/-- What is sent starts inside the buffer. -/
def IndexInRange (s : State) : Act → Prop
  | .voter _ => ∀ p ∈ s.point.voting, (s.vot p).buffIndex < maxVotePipeBuff
  | _ => True

instance : ∀ a : Act, Decidable (IndexInRange s a)
  | .voter _ => inferInstanceAs (Decidable
      (∀ p ∈ s.point.voting, (s.vot p).buffIndex < maxVotePipeBuff))
  | .write _ _ | .readInput _ _ | .exit | .externalWrite _ _ => inferInstanceAs (Decidable True)

/-- The external pipes that are still to be copied from. -/
def Point.ins : Point → List ℕ
  | .resend todo | .external todo _ => todo
  | _ => []

/-- What holds between the actions. -/
structure Sound (c : Config) (s : State) : Prop where
  pipeCount : s.replica.pipeCount = c.pipeCount
  open_zero : 0 ∈ s.fds
  wired : ∀ p < c.pipeCount, (s.vot p).fdIn ≠ 0 ↔ c.IsOut p
  count_lt : ∀ p, c.IsOut p → (s.vot p).buffCount < maxVotePipeBuff
  held : ∀ p, c.IsOut p → (∀ todo, s.point ≠ .vote p todo) → (s.vot p).buffCount = 0
  fits : ∀ p, c.IsOut p → (s.queue p).length < maxVotePipeBuff
  fresh : s.process = .started → ∀ p, c.IsOut p → s.queue p = []
  ins : ∀ p ∈ s.point.ins, ¬ c.IsOut p

/-! ### Starting the slot -/

theorem startReplicas_spec (c : Config) (s : State) (h0 : 0 ∈ s.fds) :
    (startReplicas c s).replica.pipeCount = c.pipeCount ∧ 0 ∈ (startReplicas c s).fds ∧
      ∀ p < c.pipeCount, (((startReplicas c s).vot p).fdIn ≠ 0 ↔ c.IsOut p) ∧
        ((startReplicas c s).vot p).buffCount =
          (if p < s.replica.pipeCount then 0 else (s.vot p).buffCount) := by
  have h0' : 0 ∈ (initReplica s.replica 0 c.replicaPriority s.fds).2 :=
    mem_closePipes.mpr ⟨h0, fun hheld => hheld.1 rfl⟩
  have hempty : (initReplica s.replica 0 c.replicaPriority s.fds).1.pipeCount = 0 := rfl
  obtain ⟨hwired, hsub, -⟩ := createPipes_wired c.extPipes c.pipeCount h0' hempty
  refine ⟨hwired.count, hsub h0', fun p hp => ⟨?_, ?_⟩⟩
  · constructor
    · intro hin
      refine ⟨hp, by_contra fun hext => hin ?_⟩
      exact (hwired.inward p hp hext).1
    · exact fun hout => (hwired.out p hp hout.2).1
  · refine (createPipes_votPipes VotePipe.buffCount (fun _ _ _ _ => rfl) _ _ _ _ _).trans ?_
    simp only [initReplica, State.vot]
    split <;> rfl

/-- The loop over the pipes that are read clears their counts. -/
theorem loop_clear (rep : Replica) (n : ℕ) :
    let t := loop (fun p rep =>
      if (rep.votPipes p).fdIn ≠ 0 then rep.setVot p { rep.votPipes p with buffCount := 0 }
      else rep) n rep
    t.pipeCount = rep.pipeCount ∧ ∀ p, (t.votPipes p).fdIn = (rep.votPipes p).fdIn ∧
      (p < n → (rep.votPipes p).fdIn ≠ 0 → (t.votPipes p).buffCount = 0) := by
  refine loop_induction (fun k (t : Replica) => t.pipeCount = rep.pipeCount ∧ ∀ p,
    (t.votPipes p).fdIn = (rep.votPipes p).fdIn ∧
      (p < k → (rep.votPipes p).fdIn ≠ 0 → (t.votPipes p).buffCount = 0))
    ⟨rfl, fun p => ⟨rfl, fun hp => absurd hp p.not_lt_zero⟩⟩ ?_
  rintro k - t ⟨hcount, hpipes⟩
  split
  · refine ⟨hcount, fun p => ?_⟩
    obtain ⟨hfd, hclear⟩ := hpipes p
    rcases eq_or_ne p k with rfl | hpk
    · simp only [Replica.setVot, Function.update_self]
      exact ⟨hfd, fun _ _ => trivial⟩
    · simp only [Replica.setVot, Function.update_of_ne hpk]
      exact ⟨hfd, fun hp => hclear (by omega)⟩
  · rename_i hzero
    refine ⟨hcount, fun p => ?_⟩
    obtain ⟨hfd, hclear⟩ := hpipes p
    refine ⟨hfd, fun hp hne => ?_⟩
    rcases eq_or_ne p k with rfl | hpk
    · exact absurd (hfd ▸ hne) hzero
    · exact hclear (by omega) hne

/-- **Start-up.** -/
theorem sound_initVoterS (c : Config) (memory : Replica) {fds : List ℕ} (h0 : 0 ∈ fds) :
    Sound c (initVoterS c (boot memory fds)) ∧ Complete c (initVoterS c (boot memory fds)) := by
  obtain ⟨hcount, hzero, hpipes⟩ := startReplicas_spec c (boot memory fds) h0
  obtain ⟨hcount', hpipes'⟩ := loop_clear (startReplicas c (boot memory fds)).replica
    (startReplicas c (boot memory fds)).replica.pipeCount
  have hqueue : ∀ p, (initVoterS c (boot memory fds)).queue p = [] := fun p => ite_self []
  have hclear : ∀ p, c.IsOut p → ((initVoterS c (boot memory fds)).vot p).buffCount = 0 :=
    fun p hp => (hpipes' p).2 (hcount.symm ▸ hp.1) ((hpipes p hp.1).1.mpr hp)
  have hfd : ∀ p, ((initVoterS c (boot memory fds)).vot p).fdIn =
      ((startReplicas c (boot memory fds)).vot p).fdIn := fun p => (hpipes' p).1
  have hsound : Sound c (initVoterS c (boot memory fds)) := by
    refine ⟨hcount'.trans hcount, hzero, fun p hp => ?_, fun p hp => ?_,
      fun p hp _ => hclear p hp, fun p _ => ?_, fun _ p _ => hqueue p,
      fun p hp => absurd hp List.not_mem_nil⟩
    · rw [hfd]
      exact (hpipes p hp).1
    · rw [hclear p hp]
      exact maxVotePipeBuff_pos
    · rw [hqueue p]
      exact maxVotePipeBuff_pos
  refine ⟨hsound, fun p hp => ?_⟩
  have hcontent : ((initVoterS c (boot memory fds)).vot p).content = [] :=
    List.eq_nil_of_length_eq_zero ((length_content _).trans (hclear p hp))
  rw [State.kept, hcontent, hqueue p]
  rfl

/-! ### Actions -/

/-- The messages `m` were added, and nothing was lost. -/
def Added (c : Config) (s t : State) (m : ℕ → List UInt8) : Prop :=
  ∀ p, c.IsOut p → t.kept p = s.kept p ++ m p ∧
    (t.written p).flatten = (s.written p).flatten ++ m p

theorem Added.of_eq (hkept : ∀ p, c.IsOut p → t.kept p = s.kept p)
    (hwritten : t.written = s.written) : Added c s t fun _ => [] := by
  intro p hp
  rw [List.append_nil, List.append_nil, hkept p hp, hwritten]
  exact ⟨rfl, rfl⟩

theorem mem_externalIns : p ∈ externalIns c → ¬ c.IsOut p := by
  intro hp hout
  simp only [externalIns, List.mem_filter, decide_eq_true_eq] at hp
  exact hp.2 hout.2

theorem content_eq_nil (h : Sound c s) (hp : c.IsOut p)
    (hpoint : ∀ todo, s.point ≠ .vote p todo) : (s.vot p).content = [] :=
  List.eq_nil_of_length_eq_zero ((length_content _).trans (h.held p hp hpoint))

/-- The voter goes on. -/
theorem Sound.move {point : Point} (h : Sound c s) (hvote : ∀ p todo, s.point ≠ .vote p todo)
    (hins : ∀ p ∈ point.ins, ¬ c.IsOut p) : Sound c { s with point := point } :=
  ⟨h.pipeCount, h.open_zero, h.wired, h.count_lt, fun p hp _ => h.held p hp (hvote p), h.fits,
    h.fresh, hins⟩

/-- Only pipes that lead to the replica change. -/
theorem Sound.of_ins (h : Sound c s) (queue extData extIn : ℕ → List UInt8)
    (hqueue : ∀ p, c.IsOut p → queue p = s.queue p) :
    Sound c { s with queue := queue, extData := extData, extIn := extIn } ∧
      Added c s { s with queue := queue, extData := extData, extIn := extIn } fun _ => [] := by
  refine ⟨⟨h.pipeCount, h.open_zero, h.wired, h.count_lt, h.held, fun p hp => ?_,
    fun hstart p hp => ?_, h.ins⟩, .of_eq (fun p hp => ?_) rfl⟩
  · exact (congrArg List.length (hqueue p hp)).trans_lt (h.fits p hp)
  · exact (hqueue p hp).trans (h.fresh hstart p hp)
  · exact congrArg (s.extOut p ++ (s.vot p).content ++ ·) (hqueue p hp)

/-- **The restart.** What was unread is lost, and nothing else. -/
theorem sound_voterRestartHandler (h : Sound c s) (hpoint : s.point = .check) :
    Sound c (voterRestartHandler c s) ∧ ∀ p, c.IsOut p →
      (voterRestartHandler c s).kept p ++ s.queue p = s.kept p ∧
        (voterRestartHandler c s).written p = s.written p := by
  obtain ⟨hcount, hzero, hpipes⟩ := startReplicas_spec c
    { s with fds := cleanupReplica s.replica s.fds }
    (mem_closePipes.mpr ⟨h.open_zero, fun hheld => hheld.1 rfl⟩)
  have hlt : ∀ p, c.IsOut p → p < s.replica.pipeCount := fun p hp => h.pipeCount.symm ▸ hp.1
  have hclear : ∀ p, c.IsOut p → ((voterRestartHandler c s).vot p).buffCount = 0 :=
    fun p hp => (hpipes p hp.1).2.trans (if_pos (hlt p hp))
  have hqueue : ∀ p, c.IsOut p → (voterRestartHandler c s).queue p = [] := fun p hp => if_pos hp.1
  refine ⟨⟨hcount, hzero, fun p hp => (hpipes p hp).1, fun p hp => ?_,
    fun p hp _ => hclear p hp, fun p hp => ?_, fun _ p hp => hqueue p hp,
    fun p hp => mem_externalIns hp⟩, fun p hp => ⟨?_, rfl⟩⟩
  · exact (hclear p hp).trans_lt maxVotePipeBuff_pos
  · rw [hqueue p hp]
    exact maxVotePipeBuff_pos
  · have hcontent : ((voterRestartHandler c s).vot p).content = [] :=
      List.eq_nil_of_length_eq_zero ((length_content _).trans (hclear p hp))
    rw [State.kept, State.kept, hcontent, hqueue p hp, content_eq_nil h hp (by simp [hpoint])]
    simp only [List.append_nil]
    rfl

theorem vot_setVot_ne {pipe : VotePipe} {q : ℕ} (hq : q ≠ p) :
    (s.replica.setVot p pipe).votPipes q = s.vot q := Function.update_of_ne hq _ _

theorem fdIn_readReplica (s : State) (p q : ℕ) :
    ((readReplica s p).2.vot q).fdIn = (s.vot q).fdIn := by
  rcases eq_or_ne q p with rfl | hq
  · simp only [readReplica, State.vot, Replica.setVot, Function.update_self, pipeToBuff_snd]
    split <;> rfl
  · exact congrArg VotePipe.fdIn (vot_setVot_ne hq)

theorem buffIndex_readReplica (s : State) (p q : ℕ) :
    ((readReplica s p).2.vot q).buffIndex = (s.vot q).buffIndex := by
  rcases eq_or_ne q p with rfl | hq
  · simp only [readReplica, State.vot, Replica.setVot, Function.update_self, pipeToBuff_snd]
    split <;> rfl
  · exact congrArg VotePipe.buffIndex (vot_setVot_ne hq)

/-- A message is read. -/
theorem readReplica_spec (h : Sound c s) (hp : c.IsOut p) (hcount : (s.vot p).buffCount = 0)
    (hne : s.queue p ≠ []) : (readReplica s p).1 = true ∧
      ((readReplica s p).2.vot p).content = s.queue p ∧ (readReplica s p).2.queue p = [] := by
  have hlength := h.fits p hp
  have htake : (s.queue p).take maxVotePipeBuff = s.queue p := List.take_of_length_le hlength.le
  have hfit : (s.queue p).length + (s.vot p).buffCount < maxVotePipeBuff := by omega
  have hnil : (s.vot p).content = [] :=
    List.eq_nil_of_length_eq_zero ((length_content _).trans hcount)
  have hself : (readReplica s p).2.vot p = (pipeToBuff (s.vot p) (s.queue p)).2 := by
    simp only [readReplica, htake]
    exact Function.update_self ..
  refine ⟨?_, ?_, ?_⟩
  · simp only [readReplica, htake, decide_eq_true_eq]
    exact pipeToBuff_eq_zero_iff.mpr ⟨hne, hfit⟩
  · rw [hself, pipeToBuff_content hfit, hnil, List.nil_append]
  · simp only [readReplica, Function.update_self]
    exact List.drop_of_length_le hlength.le

theorem length_buffToPipe {pipe : VotePipe} {n : ℕ} (hn : n ≤ pipe.buffCount) :
    (buffToPipe pipe n).2.1.length = n := by
  simp only [buffToPipe, if_neg hn.not_gt]
  split <;> exact Memory.length_block ..

theorem bytesReady_lone {rep : Replica} (hcount : (rep.votPipes p).buffCount < maxVotePipeBuff) :
    bytesReady (fun _ => rep) 1 p = (rep.votPipes p).buffCount := by
  simp only [bytesReady, loop_succ, loop_zero]
  exact if_pos hcount

/-- As much as is held is sent. -/
theorem sendPipe_spec (hcount : (s.vot p).buffCount < maxVotePipeBuff) :
    ((sendPipe s p).vot p).buffCount = 0 ∧ ∃ sent, (sendPipe s p).extOut p = s.extOut p ++ sent ∧
      sent.length = (s.vot p).buffCount ∧
      ((s.vot p).buffIndex < maxVotePipeBuff → sent = (s.vot p).content) := by
  have hready : bytesReady (fun _ => s.replica) 1 p = (s.vot p).buffCount := bytesReady_lone hcount
  rw [sendPipe, hready]
  split
  · rename_i hzero
    have hnil : (s.vot p).content = [] :=
      List.eq_nil_of_length_eq_zero ((length_content _).trans hzero)
    exact ⟨hzero, [], (List.append_nil _).symm, hzero.symm, fun _ => hnil.symm⟩
  · have hvot : ∀ pipe, (s.replica.setVot p pipe).votPipes p = pipe :=
      fun pipe => Function.update_self ..
    have hpipe : (buffToPipe (s.vot p) (s.vot p).buffCount).2.2 =
        fakeToPipe (s.vot p) (s.vot p).buffCount := buffToPipe_content le_rfl
    refine ⟨?_, _, Function.update_self .., length_buffToPipe le_rfl, fun hindex => ?_⟩
    · rw [State.vot, hvot, hpipe]
      exact Nat.sub_self _
    · rw [buffToPipe_bytes ⟨hindex, hcount⟩ le_rfl, List.take_of_length_le (length_content _).le]

theorem sendPipe_ne {q : ℕ} (hq : q ≠ p) :
    (sendPipe s p).vot q = s.vot q ∧ (sendPipe s p).extOut q = s.extOut q := by
  rw [sendPipe]
  split
  · exact ⟨rfl, rfl⟩
  · exact ⟨vot_setVot_ne hq, Function.update_of_ne hq _ _⟩

theorem fdIn_sendPipe (s : State) (p q : ℕ) : ((sendPipe s p).vot q).fdIn = (s.vot q).fdIn := by
  have hpipe : ∀ (pipe : VotePipe) (n : ℕ), (buffToPipe pipe n).2.2.fdIn = pipe.fdIn := by
    intro pipe n
    simp only [buffToPipe]
    split
    · rfl
    · split <;> rfl
  rw [sendPipe]
  split
  · rfl
  · rcases eq_or_ne q p with rfl | hq
    · simp only [State.vot, Replica.setVot, Function.update_self, hpipe]
    · exact congrArg VotePipe.fdIn (vot_setVot_ne hq)

theorem sendPipe_frame (s : State) (p : ℕ) :
    (sendPipe s p).replica.pipeCount = s.replica.pipeCount ∧ (sendPipe s p).fds = s.fds ∧
      (sendPipe s p).queue = s.queue ∧ (sendPipe s p).process = s.process ∧
      (sendPipe s p).written = s.written := by
  rw [sendPipe]
  split <;> exact ⟨rfl, rfl, rfl, rfl, rfl⟩

/-- What one action does: messages are added, the replica is restarted, or bytes from outside the
buffer are sent. -/
inductive StepCase (c : Config) (s : State) : Act → State → Prop
  | added {a : Act} {t : State} (m : ℕ → List UInt8) (hsound : Sound c t)
      (hadded : Added c s t m) : StepCase c s a t
  | restarted {sched : Bool} {t : State} (hpoint : s.point = .check)
      (hexited : s.process = .exited) (hsound : Sound c t) (hlost : ∀ p, c.IsOut p →
        t.kept p ++ s.queue p = s.kept p ∧ t.written p = s.written p) :
      StepCase c s (.voter sched) t
  | garbled {sched : Bool} {t : State} (hindex : ¬ IndexInRange s (.voter sched))
      (hsound : Sound c t) (hgarbled : ∀ p, c.IsOut p →
        (t.kept p).length = (s.kept p).length ∧ t.written p = s.written p) :
      StepCase c s (.voter sched) t

theorem StepCase.moved {point : Point} (h : Sound c s) (hvote : ∀ p todo, s.point ≠ .vote p todo)
    (hins : ∀ p ∈ point.ins, ¬ c.IsOut p) : StepCase c s a { s with point := point } :=
  .added _ (h.move hvote hins) (.of_eq (fun _ _ => rfl) rfl)

/-- A pipe of the replica is read. -/
theorem stepCase_scan {todo : List ℕ} (h : Sound c s) (hpoint : s.point = .scan (p :: todo))
    (hne : s.queue p ≠ []) : StepCase c s a
      { (readReplica s p).2 with
        point := if (readReplica s p).1 then .vote p todo else .scan todo } := by
  have hvote : ∀ q todo, s.point ≠ .vote q todo := by simp [hpoint]
  have hins : (if (readReplica s p).1 then Point.vote p todo else .scan todo).ins = [] := by
    split <;> rfl
  have hother : ∀ q, q ≠ p → (readReplica s p).2.vot q = s.vot q ∧
      (readReplica s p).2.queue q = s.queue q :=
    fun q hq => ⟨vot_setVot_ne hq, Function.update_of_ne hq _ _⟩
  have hvot : ∀ q, c.IsOut q → ((readReplica s p).2.vot q).buffCount < maxVotePipeBuff ∧
      (q = p ∧ (readReplica s p).1 = true ∨ ((readReplica s p).2.vot q).buffCount = 0) ∧
      ((readReplica s p).2.queue q = s.queue q ∨ (readReplica s p).2.queue q = []) ∧
      (readReplica s p).2.kept q = s.kept q := by
    intro q hq
    have hzero := h.held q hq (hvote q)
    rcases eq_or_ne q p with rfl | hqp
    · obtain ⟨htaken, hcontent, hqueue⟩ := readReplica_spec h hq hzero hne
      have hcount : ((readReplica s q).2.vot q).buffCount = (s.queue q).length :=
        (length_content _).symm.trans (congrArg List.length hcontent)
      refine ⟨hcount.trans_lt (h.fits q hq), .inl ⟨rfl, htaken⟩, .inr hqueue, ?_⟩
      rw [State.kept, State.kept, hcontent, hqueue, content_eq_nil h hq (hvote q)]
      simp only [List.append_nil]
      rfl
    · obtain ⟨hsame, hqueue⟩ := hother q hqp
      refine ⟨hsame.symm ▸ h.count_lt q hq, .inr ((congrArg _ hsame).trans hzero), .inl hqueue, ?_⟩
      rw [State.kept, State.kept, hsame, hqueue]
      rfl
  refine .added _ ⟨h.pipeCount, h.open_zero, fun q hq => ?_, fun q hq => (hvot q hq).1,
    fun q hq hpoint' => ?_, fun q hq => ?_, fun hstart q hq => ?_,
    fun q hq => absurd (hins ▸ hq) List.not_mem_nil⟩ (.of_eq (fun q hq => (hvot q hq).2.2.2) rfl)
  · exact (not_congr (fdIn_readReplica s p q ▸ Iff.rfl)).trans (h.wired q hq)
  · refine (hvot q hq).2.1.resolve_left fun ⟨heq, htaken⟩ => hpoint' todo ?_
    rw [heq]
    exact if_pos htaken
  · rcases (hvot q hq).2.2.1 with hqueue | hqueue
    · exact (congrArg List.length hqueue).trans_lt (h.fits q hq)
    · exact (congrArg List.length hqueue).trans_lt maxVotePipeBuff_pos
  · rcases (hvot q hq).2.2.1 with hqueue | hqueue
    · exact hqueue.trans (h.fresh hstart q hq)
    · exact hqueue

theorem balance_eq (c : Config) (s : State) (sched : Bool) : balance c s sched = s := rfl

/-- What is held of a pipe is sent. -/
theorem stepCase_vote {sched : Bool} {todo : List ℕ} (h : Sound c s)
    (hpoint : s.point = .vote p todo) :
    StepCase c s (.voter sched) { sendPipe s p with point := .scan todo } := by
  obtain ⟨hcount, hfds, hqueue, hprocess, hwritten⟩ := sendPipe_frame s p
  -- an out pipe other than `p` holds nothing
  have hother : ∀ q, c.IsOut q → q ≠ p → (s.vot q).buffCount = 0 := by
    intro q hq hqp
    refine h.held q hq fun todo' heq => hqp ?_
    rw [hpoint] at heq
    exact (Point.vote.inj heq).1.symm
  have hclear : ∀ q, c.IsOut q → ((sendPipe s p).vot q).buffCount = 0 := by
    intro q hq
    rcases eq_or_ne q p with rfl | hqp
    · exact (sendPipe_spec (h.count_lt q hq)).1
    · exact (congrArg _ (sendPipe_ne hqp).1).trans (hother q hq hqp)
  have hsound : Sound c { sendPipe s p with point := .scan todo } := by
    refine ⟨hcount.trans h.pipeCount, hfds ▸ h.open_zero, fun q hq => ?_,
      fun q hq => (hclear q hq).trans_lt maxVotePipeBuff_pos, fun q hq _ => hclear q hq,
      fun q hq => ?_, fun hstart q hq => ?_, fun q hq => absurd hq List.not_mem_nil⟩
    · exact (not_congr (fdIn_sendPipe s p q ▸ Iff.rfl)).trans (h.wired q hq)
    · exact (congrArg List.length (congrFun hqueue q)).trans_lt (h.fits q hq)
    · exact (congrFun hqueue q).trans (h.fresh (hprocess ▸ hstart) q hq)
  have hkept : ∀ q, c.IsOut q → ∃ sent, (sendPipe s p).kept q = s.extOut q ++ sent ++ s.queue q ∧
      sent.length = (s.vot q).buffCount ∧
      ((s.vot p).buffIndex < maxVotePipeBuff → sent = (s.vot q).content) := by
    intro q hq
    have hnil : ((sendPipe s p).vot q).content = [] :=
      List.eq_nil_of_length_eq_zero ((length_content _).trans (hclear q hq))
    rcases eq_or_ne q p with rfl | hqp
    · obtain ⟨-, sent, hout, hlength, hsent⟩ := sendPipe_spec (h.count_lt q hq)
      refine ⟨sent, ?_, hlength, hsent⟩
      rw [State.kept, hnil, hout, hqueue, List.append_nil]
    · refine ⟨(s.vot q).content, ?_, length_content _, fun _ => rfl⟩
      rw [State.kept, hnil, (sendPipe_ne hqp).2, hqueue,
        List.eq_nil_of_length_eq_zero ((length_content _).trans (hother q hq hqp))]
  by_cases hindex : (s.vot p).buffIndex < maxVotePipeBuff
  · refine .added _ hsound (.of_eq (fun q hq => ?_) hwritten)
    obtain ⟨sent, hsent, -, hcontent⟩ := hkept q hq
    exact hsent.trans (by rw [hcontent hindex, State.kept])
  · have hvoting : p ∈ s.point.voting := by simp [hpoint, Point.voting]
    refine .garbled (fun hrange => hindex (hrange p hvoting)) hsound fun q hq => ⟨?_, ?_⟩
    · obtain ⟨sent, hsent, hlength, -⟩ := hkept q hq
      have hsum := congrArg List.length hsent
      simp only [State.kept, List.length_append, length_content] at hsum ⊢
      exact hsum.trans (by rw [hlength])
    · exact congrFun hwritten q

/-- Only pipes that lead to the replica are copied to. -/
theorem Sound.ne_of_mem_ins {q : ℕ} (h : Sound c s) (hp : p ∈ s.point.ins) (hq : c.IsOut q) :
    q ≠ p := fun heq => h.ins p hp (heq ▸ hq)

theorem stepCase_resend {todo : List ℕ} (h : Sound c s) (hpoint : s.point = .resend (p :: todo)) :
    StepCase c s a { processData s p with point := .resend todo } := by
  have hp : p ∈ s.point.ins := by simp [hpoint, Point.ins]
  have htodo : ∀ q ∈ todo, ¬ c.IsOut q := fun q hq => h.ins q (by simp [hpoint, Point.ins, hq])
  obtain ⟨hsound, hadded⟩ := h.of_ins (Function.update s.queue p (s.queue p ++ s.extData p))
    s.extData s.extIn fun q hq => Function.update_of_ne (h.ne_of_mem_ins hp hq) _ _
  exact .added _ (hsound.move (by simp [hpoint]) htodo) hadded

theorem stepCase_external {todo ready : List ℕ} (h : Sound c s)
    (hpoint : s.point = .external (p :: todo) ready) :
    StepCase c s a { readExternal s p with point := .external todo ready } := by
  have hp : p ∈ s.point.ins := by simp [hpoint, Point.ins]
  have htodo : ∀ q ∈ todo, ¬ c.IsOut q := fun q hq => h.ins q (by simp [hpoint, Point.ins, hq])
  simp only [readExternal]
  split
  · obtain ⟨hsound, hadded⟩ := h.of_ins s.queue
      (Function.update s.extData p ((s.extIn p).take maxVotePipeBuff))
      (Function.update s.extIn p ((s.extIn p).drop maxVotePipeBuff)) fun _ _ => rfl
    exact .added _ (hsound.move (by simp [hpoint]) htodo) hadded
  · obtain ⟨hsound, hadded⟩ := h.of_ins
      (Function.update s.queue p
        (s.queue p ++ Function.update s.extData p ((s.extIn p).take maxVotePipeBuff) p))
      (Function.update s.extData p ((s.extIn p).take maxVotePipeBuff))
      (Function.update s.extIn p ((s.extIn p).drop maxVotePipeBuff))
      fun q hq => Function.update_of_ne (h.ne_of_mem_ins hp hq) _ _
    exact .added _ (hsound.move (by simp [hpoint]) htodo) hadded

/-- The voter's actions. -/
theorem voter_cases {sched : Bool} (h : Sound c s) (ht : t ∈ step c s (.voter sched)) :
    StepCase c s (.voter sched) t := by
  simp only [step, doOneUpdate, Option.mem_def] at ht
  split at ht
  · rename_i hpoint
    rw [Option.some.injEq] at ht
    split at ht
    · rename_i hexited
      obtain ⟨hsound, hlost⟩ := sound_voterRestartHandler h hpoint
      exact ht ▸ .restarted hpoint hexited hsound hlost
    · exact ht ▸ .moved h (by simp [hpoint]) (by simp [Point.ins])
  · rename_i hpoint
    exact Option.some.inj ht ▸ .moved h (by simp [hpoint]) (by simp [Point.ins])
  · rename_i hpoint
    exact Option.some.inj ht ▸ stepCase_resend h hpoint
  · rename_i hpoint
    refine Option.some.inj ht ▸ .moved h (by simp [hpoint]) ?_
    split
    · simp [Point.ins]
    · exact fun q hq => mem_externalIns (List.mem_of_mem_filter hq)
  · rename_i hpoint
    exact Option.some.inj ht ▸ .moved h (by simp [hpoint]) (by simp [Point.ins])
  · rename_i hpoint
    exact Option.some.inj ht ▸ stepCase_external h hpoint
  · rename_i hpoint
    exact Option.some.inj ht ▸ .moved h (by simp [hpoint]) (by simp [Point.ins])
  · rename_i hpoint
    split at ht
    · simp at ht
    · rename_i hne
      exact Option.some.inj ht ▸ stepCase_scan h hpoint hne
  · rename_i hpoint
    rw [balance_eq] at ht
    exact Option.some.inj ht ▸ stepCase_vote h hpoint

/-- The message of the replica is the first of its process. -/
theorem stepCase_write {message : List UInt8} (h : Sound c s) (hstart : s.process = .started)
    (hlength : message.length < maxVotePipeBuff) :
    StepCase c s a { s with
      queue := Function.update s.queue p (s.queue p ++ message)
      process := .written
      written := Function.update s.written p (s.written p ++ [message]) } := by
  have hempty := h.fresh hstart
  refine .added (fun q => if q = p then message else []) ⟨h.pipeCount, h.open_zero, h.wired,
    h.count_lt, h.held, fun q hq => ?_, fun hstart' => absurd hstart' (by simp), h.ins⟩
    fun q hq => ?_
  · rcases eq_or_ne q p with rfl | hqp
    · simp only [Function.update_self, hempty q hq, List.nil_append]
      exact hlength
    · simp only [Function.update_of_ne hqp]
      exact h.fits q hq
  · rcases eq_or_ne q p with rfl | hqp
    · simp only [State.kept, State.vot, Function.update_self, if_true, List.append_assoc,
        List.flatten_append, List.flatten_singleton]
      exact ⟨trivial, trivial⟩
    · simp only [State.kept, State.vot, Function.update_of_ne hqp, if_neg hqp, List.append_nil]
      exact ⟨trivial, trivial⟩

/-- **One action.** -/
theorem step_cases (h : Sound c s) (ht : t ∈ step c s a) : StepCase c s a t := by
  cases a with
  | voter sched => exact voter_cases h ht
  | write p message =>
    simp only [step, Option.mem_def, Option.ite_none_right_eq_some, Option.some.injEq] at ht
    obtain ⟨⟨-, hstart, -, hlength⟩, rfl⟩ := ht
    exact stepCase_write h hstart hlength
  | readInput p n =>
    simp only [step, Option.mem_def, Option.ite_none_right_eq_some, Option.some.injEq] at ht
    obtain ⟨⟨-, hp, -⟩, rfl⟩ := ht
    have hne : ∀ q, c.IsOut q → q ≠ p := fun q hq heq => hp (heq ▸ hq)
    obtain ⟨hsound, hadded⟩ := h.of_ins (Function.update s.queue p ((s.queue p).drop n))
      s.extData s.extIn fun q hq => Function.update_of_ne (hne q hq) _ _
    exact .added _ hsound hadded
  | exit =>
    simp only [step, Option.mem_def, Option.ite_none_right_eq_some, Option.some.injEq] at ht
    obtain ⟨-, rfl⟩ := ht
    exact .added _ ⟨h.pipeCount, h.open_zero, h.wired, h.count_lt, h.held, h.fits,
      fun hstart => absurd hstart (by simp), h.ins⟩ (.of_eq (fun _ _ => rfl) rfl)
  | externalWrite p bytes =>
    simp only [step, Option.mem_def, Option.ite_none_right_eq_some, Option.some.injEq] at ht
    obtain ⟨-, rfl⟩ := ht
    obtain ⟨hsound, hadded⟩ := h.of_ins s.queue s.extData
      (Function.update s.extIn p (s.extIn p ++ bytes)) fun _ _ => rfl
    exact .added _ hsound hadded

/-! ### Until the next `waitpid` -/

theorem written_voter {sched : Bool} (ht : t ∈ step c s (.voter sched)) :
    t.written = s.written := by
  simp only [step, doOneUpdate, Option.mem_def] at ht
  split at ht
  · rw [Option.some.injEq] at ht
    split at ht <;> exact ht ▸ rfl
  · exact Option.some.inj ht ▸ rfl
  · exact Option.some.inj ht ▸ rfl
  · exact Option.some.inj ht ▸ rfl
  · exact Option.some.inj ht ▸ rfl
  · rw [Option.some.injEq] at ht
    subst ht
    simp only [readExternal]
    split <;> rfl
  · exact Option.some.inj ht ▸ rfl
  · split at ht
    · simp at ht
    · exact Option.some.inj ht ▸ rfl
  · rename_i p todo hpoint
    rw [Option.some.injEq, balance_eq] at ht
    exact ht ▸ (sendPipe_frame s p).2.2.2.2

theorem indexInRange_of_none (hvoting : s.point.voting = none) : IndexInRange s a := by
  cases a with
  | voter sched => exact fun p hp => absurd (hvoting ▸ hp) (Option.not_mem_none p)
  | write _ _ | readInput _ _ | exit | externalWrite _ _ => trivial

/-- The voter loses nothing but in a restart. -/
theorem kept_voter {sched : Bool} (h : Sound c s) (hcheck : s.point ≠ .check)
    (hindex : IndexInRange s (.voter sched)) (ht : t ∈ step c s (.voter sched)) :
    Sound c t ∧ ∀ p, c.IsOut p → t.kept p = s.kept p := by
  cases step_cases h ht with
  | added m hsound hadded =>
    refine ⟨hsound, fun p hp => ?_⟩
    obtain ⟨hkept, hwritten⟩ := hadded p hp
    rw [written_voter ht, List.self_eq_append_right] at hwritten
    rw [hkept, hwritten, List.append_nil]
  | restarted hpoint => exact absurd hpoint hcheck
  | garbled hgarbled => exact absurd hindex hgarbled

/-- The voter acts alone. -/
abbrev Alone (c : Config) (sched : Bool) (s t : State) : Prop :=
  Reaches (step c) (fun _ a => a = .voter sched) s t

/-- What is due is read and sent. -/
theorem drains_scan (sched : Bool) {todo : List ℕ} (h : Sound c s) (hpoint : s.point = .scan todo)
    (hnodup : todo.Nodup)
    (htodo : ∀ p ∈ todo, c.IsOut p ∧ s.queue p ≠ [] ∧ (s.vot p).buffIndex < maxVotePipeBuff)
    (hrest : ∀ p, c.IsOut p → p ∉ todo → s.queue p = []) :
    ∃ t, Alone c sched s t ∧ t.point = .check ∧ ∀ p, c.IsOut p → t.extOut p = s.kept p := by
  induction todo generalizing s with
  | nil =>
    refine ⟨{ s with point := .check }, .tail .refl rfl ?_, rfl, fun p hp => ?_⟩
    · simp only [step, doOneUpdate, hpoint, Option.mem_def]
    · rw [State.kept, content_eq_nil h hp (by simp [hpoint]), hrest p hp List.not_mem_nil,
        List.append_nil, List.append_nil]
  | cons p todo ih =>
    obtain ⟨hp, hne, hindex⟩ := htodo p List.mem_cons_self
    obtain ⟨hptodo, hnodup⟩ := List.nodup_cons.mp hnodup
    obtain ⟨htaken, -, hqueue⟩ := readReplica_spec h hp (h.held p hp (by simp [hpoint])) hne
    -- it is read
    have hread : { (readReplica s p).2 with point := Point.vote p todo } ∈
        step c s (.voter sched) := by
      simp only [step, doOneUpdate, hpoint, if_neg hne, htaken, if_true, Option.mem_def]
    obtain ⟨hsound, hkept⟩ :=
      kept_voter h (by simp [hpoint]) (indexInRange_of_none (by simp [hpoint, Point.voting])) hread
    -- and sent
    have hrange : IndexInRange { (readReplica s p).2 with point := Point.vote p todo }
        (.voter sched) := by
      intro q hq
      obtain rfl : p = q := Option.some.inj hq
      exact (buffIndex_readReplica s p p).trans_lt hindex
    have hsend : { sendPipe { (readReplica s p).2 with point := Point.vote p todo } p with
        point := Point.scan todo } ∈
        step c { (readReplica s p).2 with point := .vote p todo } (.voter sched) := rfl
    obtain ⟨hsound', hkept'⟩ := kept_voter hsound (by simp) hrange hsend
    have hqueue' := (sendPipe_frame { (readReplica s p).2 with point := Point.vote p todo } p).2.2.1
    have hother : ∀ q, q ≠ p →
        (sendPipe { (readReplica s p).2 with point := Point.vote p todo } p).queue q = s.queue q :=
      fun q hq => (congrFun hqueue' q).trans (Function.update_of_ne hq _ _)
    have htodo' : ∀ q ∈ todo, c.IsOut q ∧
        (sendPipe { (readReplica s p).2 with point := Point.vote p todo } p).queue q ≠ [] ∧
        ((sendPipe { (readReplica s p).2 with point := Point.vote p todo } p).vot q).buffIndex <
          maxVotePipeBuff := by
      intro q hq
      obtain ⟨hqout, hqne, hqindex⟩ := htodo q (List.mem_cons_of_mem _ hq)
      have hqp : q ≠ p := fun heq => hptodo (heq ▸ hq)
      refine ⟨hqout, fun hnil => hqne ((hother q hqp).symm.trans hnil), ?_⟩
      rw [(sendPipe_ne hqp).1]
      exact (buffIndex_readReplica s p q).trans_lt hqindex
    have hrest' : ∀ q, c.IsOut q → q ∉ todo →
        (sendPipe { (readReplica s p).2 with point := Point.vote p todo } p).queue q = [] := by
      intro q hq hqtodo
      rcases eq_or_ne q p with rfl | hqp
      · exact (congrFun hqueue' q).trans hqueue
      · exact (hother q hqp).trans (hrest q hq (by simp [hqp, hqtodo]))
    obtain ⟨t, halone, hcheck, hout⟩ := ih hsound' rfl hnodup htodo' hrest'
    refine ⟨t, .trans (.tail (.tail .refl rfl hread) rfl hsend) halone, hcheck, fun q hq => ?_⟩
    rw [hout q hq, hkept' q hq, hkept q hq]

/-- The external pipes are read first. -/
theorem drains_external (sched : Bool) {todo ready : List ℕ} (h : Sound c s)
    (hpoint : s.point = .external todo ready) :
    ∃ t, Alone c sched s t ∧ Sound c t ∧ t.point = .scan ready ∧ t.replica = s.replica ∧
      ∀ p, c.IsOut p → t.queue p = s.queue p ∧ t.kept p = s.kept p := by
  induction todo generalizing s with
  | nil =>
    have hstep : { s with point := Point.scan ready } ∈ step c s (.voter sched) := by
      simp only [step, doOneUpdate, hpoint, Option.mem_def]
    obtain ⟨hsound, hkept⟩ :=
      kept_voter h (by simp [hpoint]) (indexInRange_of_none (by simp [hpoint, Point.voting])) hstep
    exact ⟨_, .tail .refl rfl hstep, hsound, rfl, rfl, fun p hp => ⟨rfl, hkept p hp⟩⟩
  | cons p todo ih =>
    have hstep : { readExternal s p with point := Point.external todo ready } ∈
        step c s (.voter sched) := by
      simp only [step, doOneUpdate, hpoint, Option.mem_def]
    obtain ⟨hsound, hkept⟩ :=
      kept_voter h (by simp [hpoint]) (indexInRange_of_none (by simp [hpoint, Point.voting])) hstep
    have hp : ¬ c.IsOut p := h.ins p (by simp [hpoint, Point.ins])
    have hqueue : ∀ q, c.IsOut q → (readExternal s p).queue q = s.queue q := by
      intro q hq
      have hqp : q ≠ p := fun heq => hp (heq ▸ hq)
      simp only [readExternal]
      split
      · rfl
      · exact Function.update_of_ne hqp _ _
    have hreplica : (readExternal s p).replica = s.replica := by
      simp only [readExternal]
      split <;> rfl
    obtain ⟨t, halone, hsound', hscan, hreplica', hout⟩ := ih hsound rfl
    refine ⟨t, .trans (.tail .refl rfl hstep) halone, hsound', hscan, hreplica'.trans hreplica,
      fun q hq => ?_⟩
    obtain ⟨hqueue', hkept'⟩ := hout q hq
    exact ⟨hqueue'.trans (hqueue q hq), hkept'.trans (hkept q hq)⟩

/-- **Progress.** What is unread when the voter comes to `select` is forwarded before the next
`waitpid`. -/
theorem drains (sched : Bool) (h : Sound c s) (hpoint : s.point = .waiting)
    (hindex : ∀ p, c.IsOut p → s.queue p ≠ [] → (s.vot p).buffIndex < maxVotePipeBuff) :
    ∃ t, Alone c sched s t ∧ t.point = .check ∧ ∀ p, c.IsOut p → t.extOut p = s.kept p := by
  have hready : ∀ p, p ∈ readyReplica c s ↔ c.IsOut p ∧ s.queue p ≠ [] := by
    intro p
    simp only [readyReplica, List.mem_filter, List.mem_range, decide_eq_true_eq]
    constructor
    · exact fun ⟨hp, hfd, hne⟩ => ⟨(h.wired p hp).mp hfd, hne⟩
    · exact fun ⟨hp, hne⟩ => ⟨hp.1, (h.wired p hp.1).mpr hp, hne⟩
  have hrange : IndexInRange s (.voter sched) :=
    indexInRange_of_none (by simp [hpoint, Point.voting])
  by_cases hnothing : readyExternal c s = [] ∧ readyReplica c s = []
  · have hstep : { s with point := Point.check } ∈ step c s (.voter sched) := by
      simp only [step, doOneUpdate, hpoint, if_pos hnothing, Option.mem_def]
    refine ⟨_, .tail .refl rfl hstep, rfl, fun p hp => ?_⟩
    have hempty : s.queue p = [] := by
      by_contra hne
      exact List.not_mem_nil (hnothing.2 ▸ (hready p).mpr ⟨hp, hne⟩)
    rw [State.kept, content_eq_nil h hp (by simp [hpoint]), hempty, List.append_nil,
      List.append_nil]
  · have hstep : { s with point := Point.external (readyExternal c s) (readyReplica c s) } ∈
        step c s (.voter sched) := by
      simp only [step, doOneUpdate, hpoint, if_neg hnothing, Option.mem_def]
    obtain ⟨hsound, hkept⟩ := kept_voter h (by simp [hpoint]) hrange hstep
    obtain ⟨u, halone, hsound', hscan, hreplica, hout⟩ := drains_external sched hsound rfl
    have htodo : ∀ p ∈ readyReplica c s, c.IsOut p ∧ u.queue p ≠ [] ∧
        (u.vot p).buffIndex < maxVotePipeBuff := by
      intro p hp
      obtain ⟨hp, hne⟩ := (hready p).mp hp
      refine ⟨hp, fun hnil => hne ((hout p hp).1.symm.trans hnil), ?_⟩
      rw [State.vot, hreplica]
      exact hindex p hp hne
    have hrest : ∀ p, c.IsOut p → p ∉ readyReplica c s → u.queue p = [] := by
      intro p hp hmem
      refine (hout p hp).1.trans ?_
      by_contra hne
      exact hmem ((hready p).mpr ⟨hp, hne⟩)
    obtain ⟨t, halone', hcheck, hsent⟩ :=
      drains_scan sched hsound' hscan (List.nodup_range.filter _) htodo hrest
    refine ⟨t, .trans (.tail .refl rfl hstep) (halone.trans halone'), hcheck, fun p hp => ?_⟩
    rw [hsent p hp, (hout p hp).2, hkept p hp]

/-! ### Runs -/

/-- Something that was written is lost. -/
def Lost (c : Config) (s : State) : Prop :=
  ∃ p, c.IsOut p ∧ (s.kept p).length < (s.written p).flatten.length

theorem Lost.not_complete (h : Lost c s) : ¬ Complete c s := by
  obtain ⟨p, hp, hlt⟩ := h
  exact fun hcomplete => hlt.ne (congrArg List.length (hcomplete p hp))

/-- No action makes up for what is lost: as much is added to what is kept as is written, or
less. -/
theorem length_kept_step (hsound : Sound c s) (ht : t ∈ step c s a) (hp : c.IsOut p) :
    (t.kept p).length + (s.written p).flatten.length ≤
      (s.kept p).length + (t.written p).flatten.length := by
  cases step_cases hsound ht with
  | added m _ hadded =>
    obtain ⟨hkept, hwritten⟩ := hadded p hp
    rw [hkept, hwritten, List.length_append, List.length_append]
    omega
  | restarted _ _ _ hlost =>
    obtain ⟨hkept, hwritten⟩ := hlost p hp
    have hlength := congrArg List.length hkept
    rw [List.length_append] at hlength
    rw [hwritten]
    omega
  | garbled _ _ hgarbled =>
    obtain ⟨hkept, hwritten⟩ := hgarbled p hp
    rw [hkept, hwritten]

theorem StepCase.sound (h : StepCase c s a t) : Sound c t := by
  cases h with
  | added _ hsound => exact hsound
  | restarted _ _ hsound => exact hsound
  | garbled _ hsound => exact hsound

/-- While every message is read before a restart, all is kept. -/
theorem complete_of_reaches (hsound : Sound c s) (hcomplete : Complete c s)
    (h : Reaches (step c) (fun s a => ReadBeforeRestart c s a ∧ IndexInRange s a) s t) :
    Sound c t ∧ Complete c t := by
  induction h with
  | refl => exact ⟨hsound, hcomplete⟩
  | tail _ hok hstep ih =>
    obtain ⟨hsound, hcomplete⟩ := ih
    have hcase := step_cases hsound hstep
    refine ⟨hcase.sound, fun p hp => ?_⟩
    cases hcase with
    | added m _ hadded =>
      obtain ⟨hkept, hwritten⟩ := hadded p hp
      rw [hkept, hwritten, hcomplete p hp]
    | restarted hpoint hexited _ hlost =>
      obtain ⟨hkept, hwritten⟩ := hlost p hp
      rw [hok.1 hpoint hexited p hp.1 hp, List.append_nil] at hkept
      rw [hkept, hwritten, hcomplete p hp]
    | garbled hindex => exact absurd hok.2 hindex

/-- In any run, no more is kept than was written, and what is lost does not come back. -/
theorem length_kept_of_reaches (hsound : Sound c s)
    (h : Reaches (step c) (fun _ _ => True) s t) :
    Sound c t ∧ ∀ p, c.IsOut p → (t.kept p).length + (s.written p).flatten.length ≤
      (s.kept p).length + (t.written p).flatten.length := by
  induction h with
  | refl => exact ⟨hsound, fun p _ => le_rfl⟩
  | tail _ _ hstep ih =>
    obtain ⟨hsound, hlength⟩ := ih
    refine ⟨(step_cases hsound hstep).sound, fun p hp => ?_⟩
    have hbefore := hlength p hp
    have hafter := length_kept_step hsound hstep hp
    omega

/-- A restart with something unread loses it. -/
theorem lost_of_not_readBeforeRestart (hsound : Sound c s)
    (hlength : ∀ p, c.IsOut p → (s.kept p).length ≤ (s.written p).flatten.length)
    (hunread : ¬ ReadBeforeRestart c s a) (ht : t ∈ step c s a) : Lost c t := by
  cases a with
  | voter sched =>
    simp only [ReadBeforeRestart, not_forall] at hunread
    obtain ⟨hpoint, hexited, p, -, hp, hne⟩ := hunread
    have hrestart : voterRestartHandler c s = t := by
      simpa only [step, doOneUpdate, hpoint, if_pos hexited, Option.mem_def,
        Option.some.injEq] using ht
    obtain ⟨hkept, hwritten⟩ := (sound_voterRestartHandler hsound hpoint).2 p hp
    rw [hrestart] at hkept hwritten
    have hpos : 0 < (s.queue p).length := List.length_pos_of_ne_nil hne
    have hsum := congrArg List.length hkept
    rw [List.length_append] at hsum
    have hless : (t.kept p).length < (s.kept p).length := by omega
    refine ⟨p, hp, ?_⟩
    rw [hwritten]
    exact hless.trans_le (hlength p hp)
  | write _ _ | readInput _ _ | exit | externalWrite _ _ => exact absurd trivial hunread

/-- **What is forwarded.** In a run in which nothing that was written is unread when the replica is
restarted, and what is sent starts inside the buffer, every message is forwarded once and in order,
or on its way, and what is on its way when `select` is called is forwarded before the next
`waitpid`. Behind a restart with something unread this holds nowhere. -/
theorem forwarded_iff (c : Config) (memory : Replica) {fds : List ℕ} (h0 : 0 ∈ fds) :
    (∀ s, Reaches (step c) (fun s a => ReadBeforeRestart c s a ∧ IndexInRange s a)
        (initVoterS c (boot memory fds)) s →
      Complete c s ∧ (s.point = .waiting →
        (∀ p, c.IsOut p → s.queue p ≠ [] → (s.vot p).buffIndex < maxVotePipeBuff) →
        ∀ sched, ∃ t, Alone c sched s t ∧ t.point = .check ∧
          ∀ p, c.IsOut p → t.extOut p = (s.written p).flatten)) ∧
    ∀ s a t u, Reaches (step c) (fun _ _ => True) (initVoterS c (boot memory fds)) s →
      ¬ ReadBeforeRestart c s a → t ∈ step c s a → Reaches (step c) (fun _ _ => True) t u →
      ¬ Complete c u := by
  obtain ⟨hstart, hnone⟩ := sound_initVoterS c memory h0
  constructor
  · intro s hs
    obtain ⟨hsound, hcomplete⟩ := complete_of_reaches hstart hnone hs
    refine ⟨hcomplete, fun hpoint hindex sched => ?_⟩
    obtain ⟨t, halone, hcheck, hout⟩ := drains sched hsound hpoint hindex
    exact ⟨t, halone, hcheck, fun p hp => (hout p hp).trans (hcomplete p hp)⟩
  · intro s a t u hs hunread ht hu
    obtain ⟨hsound, hlength⟩ := length_kept_of_reaches hstart hs
    have hkept : ∀ p, c.IsOut p → (s.kept p).length ≤ (s.written p).flatten.length := by
      intro p hp
      have hempty := congrArg List.length (hnone p hp)
      have hsum := hlength p hp
      omega
    obtain ⟨p, hp, hlt⟩ := lost_of_not_readBeforeRestart hsound hkept hunread ht
    refine Lost.not_complete ⟨p, hp, ?_⟩
    have hsum := (length_kept_of_reaches (step_cases hsound ht).sound hu).2 p hp
    omega

/-- Load under VoterS, with its pipe to the logger. -/
def loadConfig : Config where
  pipeCount := 1
  extPipes _ := ⟨"MSG_BUFFER", 0, 3, false, 0, 0, fun _ => 0⟩
  replicaPriority := 5

/-- Load's voter at its start. -/
def loadStart : State :=
  initVoterS loadConfig (boot
    ⟨0, 0, 0, fun _ => ⟨"", 0, 0, false, 0, 0, fun _ => 0⟩, fun _ => 0,
      fun _ => ⟨"", 0, 0, false, 0, 0, fun _ => 0⟩⟩ [0, 1, 2, 3])

/-- Load writes and exits, its message is read, and it is restarted. -/
def readInTime : List Act :=
  [.voter true, .write 0 [77], .exit, .voter true, .voter true, .voter true, .voter true,
    .voter true, .voter true]

/-- Load writes and exits between `select` and `waitpid`. -/
def lateMessage : List Act := [.voter true, .voter true, .write 0 [77], .exit, .voter true]

theorem forwarded_readInTime :
    Complete loadConfig (follow (step loadConfig) readInTime loadStart) ∧
      (follow (step loadConfig) readInTime loadStart).process = .started := by
  have hrun : Reaches (step loadConfig)
      (fun s a => ReadBeforeRestart loadConfig s a ∧ IndexInRange s a) loadStart
      (follow (step loadConfig) readInTime loadStart) :=
    reaches_follow (by decide +kernel) (by decide +kernel)
  exact ⟨((forwarded_iff loadConfig _ (by decide)).1 _ hrun).1, by decide +kernel⟩

/-- The message is in no pipe and in no buffer, and was not forwarded. -/
theorem not_forwarded_lateMessage :
    ((follow (step loadConfig) lateMessage loadStart).written 0 = [[77]] ∧
      (follow (step loadConfig) lateMessage loadStart).extOut 0 = [] ∧
      (follow (step loadConfig) lateMessage loadStart).queue 0 = []) ∧
    Reaches (step loadConfig) (fun _ _ => True) loadStart
      (follow (step loadConfig) lateMessage loadStart) ∧
    ¬ Complete loadConfig (follow (step loadConfig) lateMessage loadStart) := by
  refine ⟨by decide +kernel, reaches_follow (allSteps_true _ _) (by decide +kernel), fun h => ?_⟩
  have hkept := h 0 (by decide)
  revert hkept
  decide +kernel

end S3RES.VoterS
