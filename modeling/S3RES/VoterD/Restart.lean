import S3RES.VoterD.Wiring

/-!
# What a restart does to the out pipes

`Reforked c s t u v` is the effect of `restartPrep`, which fills slot `v` from slot `u`. On
an out pipe, the fork gets a copy of what the voter holds for `u`, everything all replicas
now have is forwarded (`forkReady`), and what is still unread of `u` in the kernel is not
part of the copy. `reforked_restartPrep` is the main result.
-/

namespace S3RES.VoterD

open Loop Memory

variable {c : Config} {s t : State} {u v p : ℕ}

/-- What is forwarded at `p` when slot `v` becomes a copy of slot `u`. -/
def forkReady (c : Config) (s : State) (u v p : ℕ) : ℕ :=
  ready c (s.setVot v p (s.vot u p)) p

theorem forkReady_le (c : Config) (s : State) (u v p : ℕ) {r : ℕ} (hr : r < c.repCount)
    (hrv : r ≠ v) : forkReady c s u v p ≤ (s.vot r p).buffCount := by
  have h := ready_le c (s.setVot v p (s.vot u p)) p hr
  rwa [vot_setVot, if_neg (fun h => hrv h.1)] at h

/-- The vote pipes at `p` are in step, slot `v` aside. -/
structure SyncedBut (c : Config) (s : State) (v p : ℕ) : Prop where
  valid : ∀ r < c.repCount, r ≠ v → (s.vot r p).Valid
  index : ∀ r < c.repCount, r ≠ v → ∀ r' < c.repCount, r' ≠ v →
    (s.vot r p).buffIndex = (s.vot r' p).buffIndex

theorem Synced.but (h : Synced c s p) (v : ℕ) : SyncedBut c s v p :=
  ⟨fun r hr _ => h.valid r hr, fun r hr _ r' hr' _ => h.index r hr r' hr'⟩

theorem SyncedBut.congr (h : SyncedBut c s v p) (hvot : ∀ r ≠ v, t.vot r p = s.vot r p) :
    SyncedBut c t v p := by
  refine ⟨fun r hr hrv => ?_, fun r hr hrv r' hr' hrv' => ?_⟩
  · rw [hvot r hrv]
    exact h.valid r hr hrv
  · rw [hvot r hrv, hvot r' hrv']
    exact h.index r hr hrv r' hr' hrv'

/-- Slot `v` is in step once it is given a pipe with the cursor of slot `u`. -/
theorem SyncedBut.setVot (h : SyncedBut c s v p) (hu : u < c.repCount) (huv : u ≠ v)
    {pipe : VotePipe} (hvalid : pipe.Valid) (hindex : pipe.buffIndex = (s.vot u p).buffIndex) :
    Synced c (s.setVot v p pipe) p := by
  have hvot : ∀ r, (s.setVot v p pipe).vot r p = if r = v then pipe else s.vot r p := fun r => by
    simp
  have hall : ∀ r < c.repCount,
      ((s.setVot v p pipe).vot r p).buffIndex = (s.vot u p).buffIndex := fun r hr => by
    rw [hvot]
    split
    · exact hindex
    · exact h.index r hr ‹_› u hu huv
  refine ⟨fun r hr => ?_, fun r hr r' hr' => (hall r hr).trans (hall r' hr').symm⟩
  rw [hvot]
  split
  · exact hvalid
  · exact h.valid r hr ‹_›

/-- Some slot other than the one that is filled has exactly what is forwarded. -/
theorem SyncedBut.exists_forkReady_eq (h : SyncedBut c s v p) (hu : u < c.repCount)
    (huv : u ≠ v) : ∃ r < c.repCount, r ≠ v ∧ forkReady c s u v p = (s.vot r p).buffCount := by
  have hsynced := h.setVot hu huv (h.valid u hu huv) rfl
  obtain ⟨r, hr, heq⟩ := hsynced.exists_ready_eq (Nat.zero_lt_of_lt hu)
  rcases eq_or_ne r v with rfl | hrv
  · exact ⟨u, hu, huv, by simpa [forkReady] using heq⟩
  · exact ⟨r, hr, hrv, by simpa [forkReady, hrv] using heq⟩

/-- `t` is `s` after slot `v` was given a copy of slot `u` at `p` and what all replicas then
had was forwarded. -/
structure Replaced (c : Config) (s t : State) (u v p : ℕ) : Prop where
  others : ∀ r < c.repCount, r ≠ v →
    t.vot r p = fakeToPipe (s.vot r p) (forkReady c s u v p)
  fork : ∃ pipe, t.vot v p = fakeToPipe (copyPipe pipe (s.vot u p)) (forkReady c s u v p)
  extOut : t.extOut p = s.extOut p ++ (s.vot u p).content.take (forkReady c s u v p)

theorem forkReady_congr {s' : State} (hvot : ∀ r ≠ v, s'.vot r p = s.vot r p) (huv : u ≠ v) :
    forkReady c s' u v p = forkReady c s u v p := by
  refine ready_congr fun r _ => ?_
  rcases eq_or_ne r v with rfl | hrv
  · simp [hvot u huv]
  · simp [hrv, hvot r hrv]

/-- Where the lane starts from matters outside slot `v` only. -/
theorem Replaced.congr_left {s' : State} (h : Replaced c s t u v p) (huv : u ≠ v)
    (hvot : ∀ r ≠ v, s'.vot r p = s.vot r p) (hout : s'.extOut p = s.extOut p) :
    Replaced c s' t u v p := by
  refine ⟨fun r hr hrv => ?_, ?_, ?_⟩
  · rw [forkReady_congr hvot huv, hvot r hrv]
    exact h.others r hr hrv
  · rw [forkReady_congr hvot huv, hvot u huv]
    exact h.fork
  · rw [forkReady_congr hvot huv, hvot u huv, hout]
    exact h.extOut

theorem Replaced.congr_right {t' : State} (h : Replaced c s t u v p) (hlane : SameLane t t' p) :
    Replaced c s t' u v p :=
  ⟨fun r hr hrv => (hlane.vot r).trans (h.others r hr hrv),
    h.fork.imp fun _ hpipe => (hlane.vot v).trans hpipe, hlane.extOut.trans h.extOut⟩

section Replaced

variable (h : Replaced c s t u v p) (hs : SyncedBut c s v p) (hu : u < c.repCount) (huv : u ≠ v)
include h hs hu huv

theorem Replaced.synced : Synced c t p := by
  obtain ⟨pipe, hpipe⟩ := h.fork
  have hindex : ∀ r < c.repCount, (t.vot r p).buffIndex =
      ((s.vot u p).buffIndex + forkReady c s u v p) % maxVotePipeBuff := by
    intro r hr
    rcases eq_or_ne r v with rfl | hrv
    · rw [hpipe]
      simp only [fakeToPipe, copyPipe_buffIndex]
    · rw [h.others r hr hrv]
      simp only [fakeToPipe, hs.index r hr hrv u hu huv]
  refine ⟨fun r hr => ?_, fun r hr r' hr' => (hindex r hr).trans (hindex r' hr').symm⟩
  rcases eq_or_ne r v with rfl | hrv
  · rw [hpipe]
    exact fakeToPipe_valid (copyPipe_valid (hs.valid u hu huv)) _
  · rw [h.others r hr hrv]
    exact fakeToPipe_valid (hs.valid r hr hrv) _

omit hs hu huv in
theorem Replaced.content {r : ℕ} (hr : r < c.repCount) (hrv : r ≠ v) :
    (t.vot r p).content = (s.vot r p).content.drop (forkReady c s u v p) := by
  rw [h.others r hr hrv, fakeToPipe_content (forkReady_le c s u v p hr hrv)]

theorem Replaced.content_fork :
    (t.vot v p).content = (s.vot u p).content.drop (forkReady c s u v p) := by
  obtain ⟨pipe, hpipe⟩ := h.fork
  rw [hpipe, fakeToPipe_content, copyPipe_content (hs.valid u hu huv)]
  rw [copyPipe_buffCount]
  exact forkReady_le c s u v p hu huv

end Replaced

/-! ### One round of the copy loop -/

theorem copyPipe_fds (destPipe srcPipe : VotePipe) :
    (copyPipe destPipe srcPipe).fdIn = destPipe.fdIn ∧
      (copyPipe destPipe srcPipe).fdOut = destPipe.fdOut := by
  simp only [copyPipe]
  split <;> exact ⟨rfl, rfl⟩

/-- The effect of one round at `p`, if `p` is an out pipe. -/
structure Copied (c : Config) (s t : State) (u v p : ℕ) : Prop extends SamePipes s t where
  replaced : Replaced c s t u v p
  other : ∀ q ≠ p, SameLane s t q
  timer : s.timerStarted = false → t.timerStarted = false
  log : t.log = if forkReady c s u v p = 0 then s.log else .forwarded p :: s.log

theorem copied_copyAndSend (hs : SyncedBut c s v p) (hu : u < c.repCount) (hv : v < c.repCount)
    (huv : u ≠ v) (hfd : (s.vot u p).fdIn ≠ 0) : Copied c s (copyAndSend c v u p s) u v p := by
  obtain ⟨hin, hout⟩ := copyPipe_fds (s.vot v p) (s.vot u p)
  simp only [copyAndSend, if_pos hfd]
  set s' := s.setVot v p (copyPipe (s.vot v p) (s.vot u p)) with hs'
  have hsynced : Synced c s' p :=
    hs.setVot hu huv (copyPipe_valid (hs.valid u hu huv)) (copyPipe_buffIndex _ _)
  have hready : ready c s' p = forkReady c s u v p := by
    refine ready_congr fun r _ => ?_
    rcases eq_or_ne r v with rfl | hrv
    · simp [hs']
    · simp [hs', hrv]
  have hvot : s'.vot u p = s.vot u p := by simp [hs', huv]
  have hforwarded := forwarded_sendPipe hsynced hu
  rw [hready] at hforwarded
  refine ⟨(samePipes_setVot s hin hout).trans (samePipes_sendPipe hsynced hu),
    ⟨fun r hr hrv => ?_, ⟨s.vot v p, ?_⟩, ?_⟩, fun q hq => ?_,
    fun htimer => ?_, ?_⟩
  · rw [hforwarded.vot r hr]
    simp [hs', hrv]
  · rw [hforwarded.vot v hv]
    simp [hs']
  · rw [hforwarded.extOut, hvot]
    rfl
  · have hlane : SameLane s s' q := ⟨fun r => by simp [hs', hq], rfl⟩
    exact hlane.trans (sameLane_sendPipe hsynced hu hq)
  · rw [timerStarted_sendPipe hsynced hu]
    split
    · rfl
    · exact htimer
  · rw [log_sendPipe hsynced hu, hready]
    rfl

/-! ### The whole restart -/

/-- The effect of the copy loop over pipes `0, …, k - 1`. -/
structure CopiedTo (c : Config) (s t : State) (u v k : ℕ) : Prop extends SamePipes s t where
  timerStarted : t.timerStarted = false
  replaced : ∀ p < k, c.IsOut p → Replaced c s t u v p
  rest : ∀ p, k ≤ p → SameLane s t p
  log : ∃ forwards, t.log = forwards ++ s.log ∧ ∀ e, e ∈ forwards ↔
    ∃ p < k, c.IsOut p ∧ 0 < forkReady c s u v p ∧ e = .forwarded p

theorem copiedTo_loop (hplumbed : Plumbed c s)
    (hs : ∀ p < c.pipeCount, c.IsOut p → SyncedBut c s v p) (hu : u < c.repCount)
    (hv : v < c.repCount) (huv : u ≠ v) (htimer : s.timerStarted = false) {n : ℕ}
    (hn : n ≤ c.pipeCount) : CopiedTo c s (loop (copyAndSend c v u) n s) u v n := by
  refine loop_induction (fun k t => CopiedTo c s t u v k) ?_ fun k hkn t ht => ?_
  · refine ⟨.refl s, htimer, fun p hp => absurd hp p.not_lt_zero, fun p _ => .refl s p, [], rfl,
      fun e => ?_⟩
    simp
  · have hk : k < c.pipeCount := hkn.trans_le hn
    have hfd := (hplumbed.congr ht.fds ht.plumbing).fdIn_ne_zero_iff hu hk
    obtain ⟨forwards, hlog, hmem⟩ := ht.log
    by_cases hout : c.IsOut k
    · have hlane := ht.rest k le_rfl
      have hcopied := copied_copyAndSend ((hs k hk hout).congr fun r _ => hlane.vot r) hu hv huv
        (hfd.mpr hout)
      have hready : forkReady c t u v k = forkReady c s u v k :=
        forkReady_congr (fun r _ => hlane.vot r) huv
      refine ⟨ht.toSamePipes.trans hcopied.toSamePipes, hcopied.timer ht.timerStarted,
        fun p hp hpout => ?_, fun p hp => ?_, ?_⟩
      · rcases Nat.lt_succ_iff_lt_or_eq.mp hp with hlt | rfl
        · exact (ht.replaced p hlt hpout).congr_right (hcopied.other p hlt.ne)
        · exact hcopied.replaced.congr_left huv (fun r _ => (hlane.vot r).symm) hlane.extOut.symm
      · have hpk : p ≠ k := by omega
        exact (ht.rest p (by omega)).trans (hcopied.other p hpk)
      · rcases Nat.eq_zero_or_pos (forkReady c s u v k) with hzero | hpos
        · refine ⟨forwards, by rw [hcopied.log, hready, if_pos hzero, hlog], fun e => ?_⟩
          rw [hmem]
          constructor
          · rintro ⟨p, hp, h⟩
            exact ⟨p, hp.trans k.lt_succ_self, h⟩
          · rintro ⟨p, hp, hpout, hpos, rfl⟩
            have hpk : p ≠ k := fun h => by simp [h, hzero] at hpos
            exact ⟨p, by omega, hpout, hpos, rfl⟩
        · refine ⟨.forwarded k :: forwards, by
            rw [hcopied.log, hready, if_neg hpos.ne', hlog, List.cons_append], fun e => ?_⟩
          rw [List.mem_cons, hmem]
          constructor
          · rintro (rfl | ⟨p, hp, h⟩)
            · exact ⟨k, k.lt_succ_self, hout, hpos, rfl⟩
            · exact ⟨p, hp.trans k.lt_succ_self, h⟩
          · rintro ⟨p, hp, hpout, hpos, rfl⟩
            rcases Nat.lt_succ_iff_lt_or_eq.mp hp with hlt | rfl
            · exact .inr ⟨p, hlt, hpout, hpos, rfl⟩
            · exact .inl rfl
    · have hsame : copyAndSend c v u k t = t := if_neg fun h => hout (hfd.mp h)
      have hcut : ∀ {p}, p < k + 1 → c.IsOut p → p < k := fun {p} hp hpout => by
        have hpk : p ≠ k := fun h => hout (h ▸ hpout)
        omega
      rw [hsame]
      refine ⟨ht.toSamePipes, ht.timerStarted,
        fun p hp hpout => ht.replaced p (hcut hp hpout) hpout, fun p hp => ht.rest p (by omega),
        forwards, hlog, fun e => (hmem e).trans ?_⟩
      constructor
      · rintro ⟨p, hp, h⟩
        exact ⟨p, hp.trans k.lt_succ_self, h⟩
      · rintro ⟨p, hp, hpout, h⟩
        exact ⟨p, hcut hp hpout, hpout, h⟩

/-- The effect of `restartPrep` filling slot `v` from slot `u`. -/
structure Reforked (c : Config) (s t : State) (u v : ℕ) : Prop extends Frame s t where
  plumbed : Plumbed c t
  timerStarted : t.timerStarted = false
  replaced : ∀ p < c.pipeCount, c.IsOut p → Replaced c s t u v p
  queue : ∀ p < c.pipeCount, c.IsOut p → ∀ r,
    t.queue r p = if r = v then [] else s.queue r p
  procs : t.procs = Function.update s.procs v (s.procs u)
  log : ∃ forwards, t.log = forwards ++ .started v s.now :: s.log ∧ ∀ e, e ∈ forwards ↔
    ∃ p < c.pipeCount, c.IsOut p ∧ 0 < forkReady c s u v p ∧ e = .forwarded p

/-- Input is taken from in pipes only. -/
theorem stolen_eq_nil (h : Plumbed c s) {r : ℕ} (hr : r < c.repCount) (hp : p < c.pipeCount)
    (hout : c.IsOut p) : stolen s r p = [] := by
  rw [stolen, if_neg (by simpa using h.copy_eq_zero hr hp hout)]

theorem queue_returnPipes (s : State) (rep : ℕ) (buffer : ℕ → List UInt8) {p : ℕ}
    (hp : buffer p = []) (r : ℕ) : (returnPipes s rep buffer).queue r p = s.queue r p := by
  rw [returnPipes_eq]
  rcases eq_or_ne r rep with rfl | hr
  · simp [hp]
  · simp [hr]

/-- The effect of `restartPrep` up to the copies, before the stolen input is given back. -/
structure Prepared (c : Config) (s t : State) (u v : ℕ) : Prop extends Frame s t where
  plumbed : Plumbed c t
  timerStarted : t.timerStarted = false
  replaced : ∀ p < c.pipeCount, c.IsOut p → Replaced c s t u v p
  queue : t.queue = Function.update (stealPipes s u).queue v fun p =>
    if p < c.pipeCount then [] else (stealPipes s u).queue v p
  procs : t.procs = Function.update s.procs v (s.procs u)
  log : ∃ forwards, t.log = forwards ++ .started v s.now :: s.log ∧ ∀ e, e ∈ forwards ↔
    ∃ p < c.pipeCount, c.IsOut p ∧ 0 < forkReady c s u v p ∧ e = .forwarded p

theorem prepared_copies (hplumbed : Plumbed c s)
    (hs : ∀ p < c.pipeCount, c.IsOut p → SyncedBut c s v p) (hu : u < c.repCount)
    (hv : v < c.repCount) (huv : u ≠ v) (sched : ℕ → ℕ → Bool) :
    Prepared c s (loop (copyAndSend c v u) c.pipeCount
      (restartReplica c { stealPipes s u with timerStarted := false } u v sched)) u v := by
  set s₂ : State := { stealPipes s u with timerStarted := false } with hs₂
  have hreplicas : s₂.replicas = s.replicas := by rw [hs₂, stealPipes_eq]
  have hframe : Frame s s₂ := by
    rw [hs₂, stealPipes_eq]
    exact ⟨rfl, rfl, rfl, rfl, rfl, rfl⟩
  have hrest : s₂.fds = s.fds ∧ s₂.extOut = s.extOut ∧ s₂.procs = s.procs ∧ s₂.log = s.log := by
    rw [hs₂, stealPipes_eq]
    exact ⟨rfl, rfl, rfl, rfl⟩
  obtain ⟨hfds, hextOut, hprocs, hlog⟩ := hrest
  have hplumbed₂ : Plumbed c s₂ := hplumbed.congr hfds (by
    funext r
    simp only [State.plumbing, hreplicas])
  have hforked := forked_restartReplica hplumbed₂ hu hv huv sched
  set s₃ := restartReplica c s₂ u v sched with hs₃
  have hvot₃ : ∀ r ≠ v, ∀ p, s₃.vot r p = s.vot r p := fun r hr p =>
    (hforked.vot r hr p).trans (by simp only [State.vot, hreplicas])
  have hcopied := copiedTo_loop hforked.plumbed
    (fun p hp hout => (hs p hp hout).congr fun r hr => hvot₃ r hr p) hu hv huv
    (hforked.timerStarted.trans (by rw [hs₂])) le_rfl
  refine ⟨hframe.trans (hforked.toFrame.trans hcopied.toFrame),
    hforked.plumbed.congr hcopied.fds hcopied.plumbing, hcopied.timerStarted,
    fun p hp hout => ?_, hcopied.queue.trans hforked.queue, ?_, ?_⟩
  · refine (hcopied.replaced p hp hout).congr_left huv (fun r hr => (hvot₃ r hr p).symm) ?_
    rw [hforked.extOut, hextOut]
  · rw [hcopied.procs, hforked.procs, hprocs]
  · obtain ⟨forwards, hforwards, hmem⟩ := hcopied.log
    refine ⟨forwards, by rw [hforwards, hforked.log, hlog, hframe.now], fun e => ?_⟩
    rw [hmem]
    have hready : ∀ p, forkReady c s₃ u v p = forkReady c s u v p := fun p =>
      forkReady_congr (fun r hr => hvot₃ r hr p) huv
    simp only [hready]

theorem reforked_restartPrep (hplumbed : Plumbed c s)
    (hs : ∀ p < c.pipeCount, c.IsOut p → SyncedBut c s v p) (hu : u < c.repCount)
    (hv : v < c.repCount) (huv : u ≠ v) (sched : ℕ → ℕ → Bool) :
    Reforked c s (restartPrep c s v u sched) u v := by
  have hprepared := prepared_copies hplumbed hs hu hv huv sched
  simp only [restartPrep]
  set buffer := fun i => if i < (s.replicas u).pipeCount then stolen s u i else [] with hbuffer
  have hkept : ∀ p < c.pipeCount, c.IsOut p → buffer p = [] := fun p hp hout => by
    simp [hbuffer, stolen_eq_nil hplumbed hu hp hout]
  have hsteal : ∀ p < c.pipeCount, c.IsOut p → ∀ r,
      (stealPipes s u).queue r p = s.queue r p := by
    intro p hp hout r
    rw [stealPipes_eq]
    rcases eq_or_ne r u with rfl | hr
    · simp [stolen_eq_nil hplumbed hu hp hout]
    · simp [hr]
  set s₄ := loop (copyAndSend c v u) c.pipeCount
    (restartReplica c { stealPipes s u with timerStarted := false } u v sched)
  have hreturn : ∀ (t : State) r, Frame t (returnPipes t r buffer) ∧
      (returnPipes t r buffer).replicas = t.replicas ∧
      (returnPipes t r buffer).fds = t.fds ∧
      (returnPipes t r buffer).timerStarted = t.timerStarted ∧
      (returnPipes t r buffer).extOut = t.extOut ∧
      (returnPipes t r buffer).procs = t.procs ∧ (returnPipes t r buffer).log = t.log := by
    intro t r
    rw [returnPipes_eq]
    exact ⟨⟨rfl, rfl, rfl, rfl, rfl, rfl⟩, rfl, rfl, rfl, rfl, rfl, rfl⟩
  obtain ⟨hf₅, hr₅, hfd₅, ht₅, ho₅, hp₅, hl₅⟩ := hreturn s₄ v
  set s₅ := returnPipes s₄ v buffer with hs₅
  obtain ⟨hf₆, hr₆, hfd₆, ht₆, ho₆, hp₆, hl₆⟩ := hreturn s₅ u
  refine ⟨hprepared.toFrame.trans (hf₅.trans hf₆), hprepared.plumbed.congr ?_ ?_, ?_,
    fun p hp hout => ?_, fun p hp hout r => ?_, ?_, ?_⟩
  · rw [hfd₆, hfd₅]
  · funext r
    simp only [State.plumbing, hr₆, hr₅]
  · rw [ht₆, ht₅, hprepared.timerStarted]
  · refine (hprepared.replaced p hp hout).congr_right ⟨fun r => ?_, ?_⟩
    · simp only [State.vot, hr₆, hr₅]
    · rw [ho₆, ho₅]
  · rw [queue_returnPipes _ _ _ (hkept p hp hout), hs₅,
      queue_returnPipes _ _ _ (hkept p hp hout), hprepared.queue]
    rcases eq_or_ne r v with rfl | hr
    · simp [hp]
    · simp [hr, hsteal p hp hout r]
  · rw [hp₆, hp₅, hprepared.procs]
  · rw [hl₆, hl₅]
    exact hprepared.log

end S3RES.VoterD
