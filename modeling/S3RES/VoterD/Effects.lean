import S3RES.VoterD.Machine

/-!
# What the functions of VoterD do

One lemma per function of the model, in the terms later arguments need: the bytes each
replica has on an out pipe (`State.vot`), what was forwarded (`State.extOut`), what is
under way (`State.queue`) and who is connected to what (`State.plumbing`).

The state of one out pipe `p`, the vote pipes of all replicas at `p` and what was forwarded
there, is changed by `sendPipe`, by a read and by a restart only. `Synced` says that the
vote pipes at `p` are valid and share one start index; `Forwarded` is the effect of
`sendPipe` on it.
-/

namespace S3RES.VoterD

open Loop Memory

variable {c : Config} {s t : State}

/-! ### Frames -/

/-- What neither voting nor a restart changes. -/
structure Frame (s t : State) : Prop where
  point : t.point = s.point
  currentTimer : t.currentTimer = s.currentTimer
  watchdog : t.watchdog = s.watchdog
  extData : t.extData = s.extData
  extIn : t.extIn = s.extIn
  now : t.now = s.now

theorem Frame.refl (s : State) : Frame s s := ⟨rfl, rfl, rfl, rfl, rfl, rfl⟩

theorem Frame.trans {s t u : State} (h : Frame s t) (h' : Frame t u) : Frame s u :=
  ⟨h'.point.trans h.point, h'.currentTimer.trans h.currentTimer, h'.watchdog.trans h.watchdog,
    h'.extData.trans h.extData, h'.extIn.trans h.extIn, h'.now.trans h.now⟩

/-- The plumbing of slot `r`. -/
def State.plumbing (s : State) (r : ℕ) : Plumbing := (s.replicas r).plumbing

/-- Voting changes neither the pipes nor the processes at their far ends. -/
structure SamePipes (s t : State) : Prop extends Frame s t where
  queue : t.queue = s.queue
  procs : t.procs = s.procs
  fds : t.fds = s.fds
  plumbing : t.plumbing = s.plumbing

theorem SamePipes.refl (s : State) : SamePipes s s := ⟨.refl s, rfl, rfl, rfl, rfl⟩

theorem SamePipes.trans {s t u : State} (h : SamePipes s t) (h' : SamePipes t u) :
    SamePipes s u :=
  ⟨h.toFrame.trans h'.toFrame, h'.queue.trans h.queue, h'.procs.trans h.procs,
    h'.fds.trans h.fds, h'.plumbing.trans h.plumbing⟩

/-! ### Small updates -/

@[simp] theorem vot_setVot (s : State) (r p : ℕ) (pipe : VotePipe) (r' p' : ℕ) :
    (s.setVot r p pipe).vot r' p' = if r' = r ∧ p' = p then pipe else s.vot r' p' := by
  simp only [State.setVot, State.vot, Replica.setVot]
  rcases eq_or_ne r' r with rfl | hr
  · rcases eq_or_ne p' p with rfl | hp
    · simp
    · simp [hp]
  · simp [hr]

@[simp] theorem vot_setQueue (s : State) (r p : ℕ) (bytes : List UInt8) (r' p' : ℕ) :
    (s.setQueue r p bytes).vot r' p' = s.vot r' p' := rfl

@[simp] theorem queue_setQueue (s : State) (r p : ℕ) (bytes : List UInt8) (r' p' : ℕ) :
    (s.setQueue r p bytes).queue r' p' = if r' = r ∧ p' = p then bytes else s.queue r' p' := by
  simp only [State.setQueue]
  rcases eq_or_ne r' r with rfl | hr
  · rcases eq_or_ne p' p with rfl | hp
    · simp
    · simp [hp]
  · simp [hr]

/-- A vote pipe may be replaced by one on the same descriptors. -/
theorem samePipes_setVot (s : State) {r p : ℕ} {pipe : VotePipe}
    (hin : pipe.fdIn = (s.vot r p).fdIn) (hout : pipe.fdOut = (s.vot r p).fdOut) :
    SamePipes s (s.setVot r p pipe) := by
  refine ⟨⟨rfl, rfl, rfl, rfl, rfl, rfl⟩, rfl, rfl, rfl, funext fun r' => ?_⟩
  rcases eq_or_ne r' r with rfl | hr
  · simp only [State.plumbing, State.setVot, Function.update_self, Replica.plumbing,
      Replica.setVot, Plumbing.mk.injEq, true_and, and_true]
    constructor
    · funext q
      rcases eq_or_ne q p with rfl | hq
      · simpa [State.vot] using hin
      · simp [hq]
    · funext q
      rcases eq_or_ne q p with rfl | hq
      · simpa [State.vot] using hout
      · simp [hq]
  · simp [State.plumbing, State.setVot, hr]

/-- Priorities may be changed. -/
theorem samePipes_balance (c : Config) (s : State) (sched : ℕ → Bool) :
    SamePipes s (balance c s sched) :=
  ⟨⟨rfl, rfl, rfl, rfl, rfl, rfl⟩, rfl, rfl, rfl,
    funext fun _ => balanceReps_proj Replica.plumbing (fun _ _ => rfl) ..⟩

@[simp] theorem vot_balance (c : Config) (s : State) (sched : ℕ → Bool) (r p : ℕ) :
    (balance c s sched).vot r p = s.vot r p := by
  simp [balance, State.vot]

@[simp] theorem fakeToPipe_zero {pipe : VotePipe} (h : pipe.Valid) : fakeToPipe pipe 0 = pipe := by
  simp [fakeToPipe, Nat.mod_eq_of_lt h.index_lt]

/-! ### One out pipe -/

/-- The vote pipes at `p` are valid and share one start index. -/
structure Synced (c : Config) (s : State) (p : ℕ) : Prop where
  valid : ∀ r < c.repCount, (s.vot r p).Valid
  index : ∀ r < c.repCount, ∀ r' < c.repCount, (s.vot r p).buffIndex = (s.vot r' p).buffIndex

theorem Synced.congr {p : ℕ} (h : Synced c s p) (hvot : ∀ r < c.repCount, t.vot r p = s.vot r p) :
    Synced c t p :=
  ⟨fun r hr => by rw [hvot r hr]; exact h.valid r hr,
    fun r hr r' hr' => by rw [hvot r hr, hvot r' hr']; exact h.index r hr r' hr'⟩

/-- The number of bytes all replicas have at `p`. -/
def ready (c : Config) (s : State) (p : ℕ) : ℕ := bytesReady s.replicas c.repCount p

theorem ready_le (c : Config) (s : State) (p : ℕ) {r : ℕ} (hr : r < c.repCount) :
    ready c s p ≤ (s.vot r p).buffCount := bytesReady_le s.replicas p hr

theorem Synced.exists_ready_eq {p : ℕ} (h : Synced c s p) (hpos : 0 < c.repCount) :
    ∃ r < c.repCount, ready c s p = (s.vot r p).buffCount :=
  exists_bytesReady_eq s.replicas p hpos fun r hr => (h.valid r hr).count_lt

theorem ready_congr {p : ℕ}
    (h : ∀ r < c.repCount, (s.vot r p).buffCount = (t.vot r p).buffCount) :
    ready c s p = ready c t p := bytesReady_congr h

/-- `t` is `s` after `n` bytes were forwarded at `p`, taken from replica `u`. -/
structure Forwarded (c : Config) (s t : State) (p u n : ℕ) : Prop where
  vot : ∀ r < c.repCount, t.vot r p = fakeToPipe (s.vot r p) n
  extOut : t.extOut p = s.extOut p ++ (s.vot u p).content.take n

/-- `t` agrees with `s` on what concerns out pipe `p`. -/
structure SameLane (s t : State) (p : ℕ) : Prop where
  vot : ∀ r, t.vot r p = s.vot r p
  extOut : t.extOut p = s.extOut p

theorem SameLane.refl (s : State) (p : ℕ) : SameLane s s p := ⟨fun _ => rfl, rfl⟩

theorem SameLane.trans {s t u : State} {p : ℕ} (h : SameLane s t p) (h' : SameLane t u p) :
    SameLane s u p := ⟨fun r => (h'.vot r).trans (h.vot r), h'.extOut.trans h.extOut⟩

/-- Forwarding keeps the vote pipes in step. -/
theorem Forwarded.synced {p u n : ℕ} (h : Forwarded c s t p u n) (hs : Synced c s p) :
    Synced c t p := by
  refine ⟨fun r hr => ?_, fun r hr r' hr' => ?_⟩
  · rw [h.vot r hr]
    exact fakeToPipe_valid (hs.valid r hr) n
  · rw [h.vot r hr, h.vot r' hr']
    simp only [fakeToPipe, hs.index r hr r' hr']

theorem Forwarded.content {p u n r : ℕ} (h : Forwarded c s t p u n) (hr : r < c.repCount)
    (hn : n ≤ (s.vot r p).buffCount) : (t.vot r p).content = (s.vot r p).content.drop n := by
  rw [h.vot r hr, fakeToPipe_content hn]

/-! ### `sendPipe` -/

/-- The state after a `sendPipe` that found `n > 0` bytes ready. -/
def sent (c : Config) (s : State) (p u n : ℕ) : State :=
  { s with
    timerStarted :=
      if p = c.timerStopIndex 0 ∨ p = c.timerStopIndex 1 then false else s.timerStarted
    replicas := fun r =>
      if r < c.repCount then (s.replicas r).setVot p (fakeToPipe (s.vot r p) n)
      else s.replicas r
    extOut := Function.update s.extOut p (s.extOut p ++ (s.vot u p).content.take n)
    log := .forwarded p :: s.log }

/-- `sendPipe` advances every vote pipe at `p` by what is ready. -/
theorem sendPipe_eq {p u : ℕ} (hu : u < c.repCount) (hvalid : (s.vot u p).Valid) :
    sendPipe c s p u = if ready c s p = 0 then s else sent c s p u (ready c s p) := by
  have hn := ready_le c s p hu
  simp only [sendPipe]
  change (if ready c s p = 0 then s else loop (sendRound p u (ready c s p)) _ _) = _
  split
  · rfl
  generalize ready c s p = n at *
  -- after `k` rounds the first `k` pipes have been advanced, and one of them was written out
  have hloop := loop_induction (n := c.repCount) (s := stopTimer c s p) (f := sendRound p u n)
    (fun k t => t =
      { sent c s p u n with
        replicas := fun r =>
          if r < k then (s.replicas r).setVot p (fakeToPipe (s.vot r p) n) else s.replicas r
        extOut := if u < k then (sent c s p u n).extOut else s.extOut
        log := if u < k then (sent c s p u n).log else s.log }) ?_ fun k _ t ht => ?_
  · rw [hloop, if_pos hu, if_pos hu]
    rfl
  · simp only [Nat.not_lt_zero, if_false, sent, stopTimer]
    split <;> rfl
  · subst ht
    have hreps : Function.update
        (fun r => if r < k then (s.replicas r).setVot p (fakeToPipe (s.vot r p) n)
          else s.replicas r) k ((s.replicas k).setVot p (fakeToPipe (s.vot k p) n)) =
        fun r => if r < k + 1 then (s.replicas r).setVot p (fakeToPipe (s.vot r p) n)
          else s.replicas r := by
      funext r
      rcases lt_trichotomy r k with h | rfl | h
      · simp [h, h.ne, h.trans k.lt_succ_self]
      · simp
      · simp [h.ne', h.not_gt, show ¬ r < k + 1 by omega]
    simp only [State.vot] at hreps hn hvalid
    simp only [sendRound, State.setVot, State.vot, lt_irrefl, if_false, sent]
    split
    · rename_i huk
      subst huk
      simp only [buffToPipe_content hn, buffToPipe_bytes hvalid hn, hreps, lt_irrefl, if_false,
        u.lt_succ_self, if_true]
    · rename_i huk
      have hiff : u < k + 1 ↔ u < k := by omega
      simp only [hreps, hiff]

section SendPipe

variable {p u : ℕ}

/-- The effect of `sendPipe` at its own pipe. -/
theorem forwarded_sendPipe (hs : Synced c s p) (hu : u < c.repCount) :
    Forwarded c s (sendPipe c s p u) p u (ready c s p) := by
  rw [sendPipe_eq hu (hs.valid u hu)]
  split
  · rename_i hzero
    exact ⟨fun r hr => by rw [hzero, fakeToPipe_zero (hs.valid r hr)], by simp [hzero]⟩
  · refine ⟨fun r hr => ?_, by simp [sent]⟩
    simp [sent, State.vot, hr, Replica.setVot]

/-- The effect of `sendPipe` at the other pipes: none. -/
theorem sameLane_sendPipe (hs : Synced c s p) (hu : u < c.repCount) {q : ℕ} (hq : q ≠ p) :
    SameLane s (sendPipe c s p u) q := by
  rw [sendPipe_eq hu (hs.valid u hu)]
  split
  · exact .refl s q
  · refine ⟨fun r => ?_, by simp [sent, hq]⟩
    simp only [sent, State.vot]
    split
    · simp [Replica.setVot, hq]
    · rfl

theorem samePipes_sendPipe (hs : Synced c s p) (hu : u < c.repCount) :
    SamePipes s (sendPipe c s p u) := by
  rw [sendPipe_eq hu (hs.valid u hu)]
  split
  · exact .refl s
  · refine ⟨⟨rfl, rfl, rfl, rfl, rfl, rfl⟩, rfl, rfl, rfl, funext fun r => ?_⟩
    simp only [State.plumbing, sent]
    split
    · have hfds : ∀ n, (s.setVot r p (fakeToPipe (s.vot r p) n)).plumbing = s.plumbing :=
        fun n => (samePipes_setVot s (by rfl) (by rfl)).plumbing
      simpa [State.plumbing, State.setVot] using congrFun (hfds _) r
    · rfl

/-- `sendPipe` stops the timer exactly when it forwards on the out pipe of a timed pair. -/
theorem timerStarted_sendPipe (hs : Synced c s p) (hu : u < c.repCount) :
    (sendPipe c s p u).timerStarted =
      if ready c s p ≠ 0 ∧ (p = c.timerStopIndex 0 ∨ p = c.timerStopIndex 1) then false
      else s.timerStarted := by
  rw [sendPipe_eq hu (hs.valid u hu)]
  split <;> simp_all [sent]

theorem log_sendPipe (hs : Synced c s p) (hu : u < c.repCount) :
    (sendPipe c s p u).log = if ready c s p = 0 then s.log else .forwarded p :: s.log := by
  rw [sendPipe_eq hu (hs.valid u hu)]
  split <;> rfl

end SendPipe

/-! ### Stealing and returning input -/

/-- A loop that replaces the unread bytes of one replica's pipes, one after the other. -/
theorem loop_queue {rep : ℕ} {f : ℕ → State → State} {g : ℕ → List UInt8}
    (hf : ∀ i q, q rep i = s.queue rep i → f i { s with queue := q } =
      { s with queue := Function.update q rep (Function.update (q rep) i (g i)) }) (n : ℕ) :
    loop f n s = { s with
      queue := Function.update s.queue rep fun i => if i < n then g i else s.queue rep i } := by
  refine loop_induction (s := s) (fun k t => t = { s with
    queue := Function.update s.queue rep fun i => if i < k then g i else s.queue rep i })
    (by simp) fun k _ t ht => ?_
  rw [ht, hf k _ (by simp)]
  congr 1
  funext r
  rcases eq_or_ne r rep with rfl | hr
  · simp only [Function.update_self]
    funext i
    rcases lt_trichotomy i k with h | rfl | h
    · simp [h, h.ne, h.trans k.lt_succ_self]
    · simp
    · simp [h.ne', h.not_gt, show ¬ i < k + 1 by omega]
  · simp [hr]

theorem stealPipes_eq (s : State) (rep : ℕ) :
    stealPipes s rep = { s with
      queue := Function.update s.queue rep fun i =>
        if i < (s.replicas rep).pipeCount then (s.queue rep i).drop (stolen s rep i).length
        else s.queue rep i } := by
  refine loop_queue (fun i q hq => ?_) _
  simp [State.setQueue, stolen, hq]

theorem returnPipes_eq (s : State) (rep : ℕ) (buffer : ℕ → List UInt8) :
    returnPipes s rep buffer = { s with
      queue := Function.update s.queue rep fun i =>
        if i < (s.replicas rep).pipeCount then s.queue rep i ++ buffer i
        else s.queue rep i } := by
  refine loop_queue (fun i q hq => ?_) _
  split
  · simp [writeBuffer, State.setQueue, hq]
  · rename_i hbuffer
    obtain h : buffer i = [] := List.eq_nil_of_length_eq_zero (by omega)
    simp [h, ← hq]

end S3RES.VoterD
