import S3RES.VoterD.Effects

/-!
# The descriptors stay connected as they should

`Plumbed c s`: every slot is wired to `c.pipeCount` pipes, all its descriptors are open, no
two slots share one, and none of them is the external end of a pipe. A restart closes the
descriptors of one slot and opens new ones (`PlumbedAt.drop`, `PlumbedAt.add`), which keeps
this true: `forked_restartReplica`, `restarted_startReplicas`.
-/

namespace S3RES.VoterD

open Loop Memory

/-- The slots in `live` are wired to `n` pipes by open descriptors of their own. -/
structure PlumbedAt (extPipes : ℕ → VotePipe) (n : ℕ) (live : ℕ → Prop) (fds : List ℕ)
    (pl : ℕ → Plumbing) : Prop where
  zero_open : 0 ∈ fds
  ext_open : ∀ p < n, (extPipes p).fdIn ∈ fds
  wired : ∀ r, live r → (pl r).Wired extPipes n
  held_open : ∀ r, live r → ∀ fd, (pl r).Holds fd → fd ∈ fds
  disjoint : ∀ r r', live r → live r' → r ≠ r' → ∀ fd, (pl r).Holds fd → ¬ (pl r').Holds fd
  ext_free : ∀ r, live r → ∀ p < n, ¬ (pl r).Holds (extPipes p).fdIn

section PlumbedAt

variable {extPipes : ℕ → VotePipe} {n : ℕ} {live live' : ℕ → Prop} {fds fds' : List ℕ}
  {pl pl' : ℕ → Plumbing} {v : ℕ}

/-- Only the live slots matter. -/
theorem PlumbedAt.congr (h : PlumbedAt extPipes n live fds pl) (hlive : ∀ r, live' r → live r)
    (hpl : ∀ r, live' r → pl' r = pl r) : PlumbedAt extPipes n live' fds pl' := by
  refine ⟨h.zero_open, h.ext_open, fun r hr => ?_, fun r hr => ?_, fun r r' hr hr' => ?_,
    fun r hr => ?_⟩
  · rw [hpl r hr]
    exact h.wired r (hlive r hr)
  · rw [hpl r hr]
    exact h.held_open r (hlive r hr)
  · rw [hpl r hr, hpl r' hr']
    exact h.disjoint r r' (hlive r hr) (hlive r' hr')
  · rw [hpl r hr]
    exact h.ext_free r (hlive r hr)

/-- Closing what slot `v` holds leaves the other slots as they were. -/
theorem PlumbedAt.drop (h : PlumbedAt extPipes n live fds pl) (hv : live v)
    (hfds : ∀ fd, fd ∈ fds' ↔ fd ∈ fds ∧ ¬ (pl v).Holds fd) :
    PlumbedAt extPipes n (fun r => live r ∧ r ≠ v) fds' pl where
  zero_open := (hfds 0).mpr ⟨h.zero_open, fun hheld => hheld.1 rfl⟩
  ext_open p hp := (hfds _).mpr ⟨h.ext_open p hp, h.ext_free v hv p hp⟩
  wired r hr := h.wired r hr.1
  held_open r hr fd hfd :=
    (hfds fd).mpr ⟨h.held_open r hr.1 fd hfd, h.disjoint r v hr.1 hv hr.2 fd hfd⟩
  disjoint r r' hr hr' := h.disjoint r r' hr.1 hr'.1
  ext_free r hr := h.ext_free r hr.1

/-- A slot may be filled with new pipes. -/
theorem PlumbedAt.add (h : PlumbedAt extPipes n live fds pl) (hv : ¬ live v)
    {rep : Replica} (hrep : rep.pipeCount = 0) (hfds : fds' = (createPipes extPipes n rep fds).2)
    (hpl : ∀ r, live r → pl' r = pl r)
    (hnew : pl' v = (createPipes extPipes n rep fds).1.plumbing) :
    PlumbedAt extPipes n (fun r => live r ∨ r = v) fds' pl' := by
  obtain ⟨hwired, hsub, hheld⟩ := createPipes_wired extPipes n h.zero_open hrep
  rw [← hfds] at hsub hheld
  rw [← hnew] at hwired hheld
  refine ⟨hsub h.zero_open, fun p hp => hsub (h.ext_open p hp), ?_, ?_, ?_, ?_⟩
  · rintro r (hr | rfl)
    · rw [hpl r hr]
      exact h.wired r hr
    · exact hwired
  · rintro r (hr | rfl) fd hfd
    · rw [hpl r hr] at hfd
      exact hsub (h.held_open r hr fd hfd)
    · exact (hheld fd hfd).2
  · rintro r r' (hr | rfl) (hr' | rfl) hne fd hfd hfd'
    · rw [hpl r hr] at hfd
      rw [hpl r' hr'] at hfd'
      exact h.disjoint r r' hr hr' hne fd hfd hfd'
    · rw [hpl r hr] at hfd
      exact (hheld fd hfd').1 (h.held_open r hr fd hfd)
    · rw [hpl r' hr'] at hfd'
      exact (hheld fd hfd).1 (h.held_open r' hr' fd hfd')
    · exact hne rfl
  · rintro r (hr | rfl) p hp hfd
    · rw [hpl r hr] at hfd
      exact h.ext_free r hr p hp hfd
    · exact (hheld _ hfd).1 (h.ext_open p hp)

end PlumbedAt

variable {c : Config} {s t : State}

/-- Every slot is wired by open descriptors of its own. -/
def Plumbed (c : Config) (s : State) : Prop :=
  PlumbedAt c.extPipes c.pipeCount (· < c.repCount) s.fds s.plumbing

theorem Plumbed.congr (h : Plumbed c s) (hfds : t.fds = s.fds)
    (hpl : t.plumbing = s.plumbing) : Plumbed c t := by
  rw [Plumbed, hfds, hpl]
  exact h

/-- The voter reads a replica's pipe exactly when it is an out pipe. -/
theorem Plumbed.fdIn_ne_zero_iff (h : Plumbed c s) {r p : ℕ} (hr : r < c.repCount)
    (hp : p < c.pipeCount) : (s.vot r p).fdIn ≠ 0 ↔ c.IsOut p := by
  have hwired := h.wired r hr
  constructor
  · intro hne
    by_contra hout
    exact hne (hwired.inward p hp hout).1
  · intro hout
    exact (hwired.out p hp hout).1

/-- The voter keeps no copy of an out pipe. -/
theorem Plumbed.copy_eq_zero (h : Plumbed c s) {r p : ℕ} (hr : r < c.repCount)
    (hp : p < c.pipeCount) (hout : c.IsOut p) : (s.replicas r).voterRepInCopy p = 0 :=
  ((h.wired r hr).out p hp hout).2

theorem Plumbed.pipeCount (h : Plumbed c s) {r : ℕ} (hr : r < c.repCount) :
    (s.replicas r).pipeCount = c.pipeCount := (h.wired r hr).count

/-- A descriptor the voter reads determines replica and pipe. -/
theorem Plumbed.fdIn_injective (h : Plumbed c s) {r r' p p' : ℕ} (hr : r < c.repCount)
    (hr' : r' < c.repCount) (hp : p < c.pipeCount) (hp' : p' < c.pipeCount)
    (hne : (s.vot r p).fdIn ≠ 0) (heq : (s.vot r p).fdIn = (s.vot r' p').fdIn) :
    r = r' ∧ p = p' := by
  have hheld : ∀ {r p}, r < c.repCount → p < c.pipeCount → (s.vot r p).fdIn ≠ 0 →
      (s.plumbing r).Holds (s.vot r p).fdIn := fun {r p} hr hp hne =>
    ⟨hne, p, (h.wired r hr).count ▸ hp, .inl rfl⟩
  obtain rfl : r = r' := by
    by_contra hrr
    exact h.disjoint r r' hr hr' hrr _ (hheld hr hp hne) (heq ▸ hheld hr' hp' (heq ▸ hne))
  exact ⟨rfl, (h.wired r hr).injective p hp p' hp' hne heq⟩

/-- No replica is read at the external end of a pipe. -/
theorem Plumbed.fdIn_ne_ext (h : Plumbed c s) {r p q : ℕ} (hr : r < c.repCount)
    (hp : p < c.pipeCount) (hq : q < c.pipeCount) (hne : (s.vot r p).fdIn ≠ 0) :
    (s.vot r p).fdIn ≠ (c.extPipes q).fdIn := by
  intro heq
  exact h.ext_free r hr q hq (heq ▸ ⟨hne, p, (h.wired r hr).count ▸ hp, .inl rfl⟩)

/-! ### Filling slots -/

@[simp] theorem reinit_fds (c : Config) (s : State) (rep index : ℕ) :
    (reinit c s rep index).fds = closePipes (s.replicas rep) s.fds := rfl

/-- A slot that was emptied, then given new pipes. -/
theorem PlumbedAt.newPipes {live : ℕ → Prop} {v : ℕ}
    (h : PlumbedAt c.extPipes c.pipeCount live s.fds s.plumbing) (hv : ¬ live v)
    (hrep : (s.replicas v).pipeCount = 0) :
    PlumbedAt c.extPipes c.pipeCount (fun r => live r ∨ r = v)
      (newPipes c s v c.pipeCount).fds (newPipes c s v c.pipeCount).plumbing := by
  refine h.add hv hrep rfl (fun r hr => ?_) ?_
  · have hne : r ≠ v := fun heq => hv (heq ▸ hr)
    simp [State.plumbing, VoterD.newPipes, hne]
  · simp [State.plumbing, VoterD.newPipes]

/-- The priority loop touches priorities only. -/
theorem favour_proj {β : Type*} (π : Replica → β)
    (hπ : ∀ rep priority, π { rep with priority := priority } = π rep) (c : Config)
    (restarter restartee : ℕ) (sched : ℕ → Bool) (reps : ℕ → Replica) (r : ℕ) :
    π (favour c restarter restartee sched reps r) = π (reps r) := by
  refine loop_induction (fun _ (t : ℕ → Replica) => π (t r) = π (reps r)) rfl fun i _ t ht => ?_
  dsimp only
  split
  · rcases eq_or_ne r i with rfl | hne
    · rw [Function.update_self, hπ, ht]
    · rw [Function.update_of_ne hne, ht]
  · exact ht

/-- The effect of `restartReplica`: slot `v` has new, empty pipes and runs a fork of the
process in slot `u`. Its vote pipes are still to be filled. -/
structure Forked (c : Config) (s t : State) (u v : ℕ) : Prop extends Frame s t where
  plumbed : Plumbed c t
  timerStarted : t.timerStarted = s.timerStarted
  extOut : t.extOut = s.extOut
  vot : ∀ r ≠ v, ∀ p, t.vot r p = s.vot r p
  queue : t.queue = Function.update s.queue v fun p =>
    if p < c.pipeCount then [] else s.queue v p
  procs : t.procs = Function.update s.procs v (s.procs u)
  log : t.log = .started v s.now :: s.log

theorem forked_restartReplica (h : Plumbed c s) {u v : ℕ} (hu : u < c.repCount)
    (hv : v < c.repCount) (huv : u ≠ v) (sched : ℕ → ℕ → Bool) :
    Forked c s (restartReplica c s u v sched) u v := by
  simp only [restartReplica]
  set s₂ : State := { s with
    fds := cleanupReplica (s.replicas v) s.fds
    replicas := favour c u v (sched 1) s.replicas } with hs₂
  have hplumbing : s₂.plumbing = s.plumbing := by
    funext r
    exact favour_proj Replica.plumbing (fun _ _ => rfl) ..
  have hvot : ∀ r p, s₂.vot r p = s.vot r p := fun r p =>
    favour_proj (fun rep => rep.votPipes p) (fun _ _ => rfl) ..
  have hcount : ((reinit c s₂ v 0).replicas u).pipeCount = c.pipeCount := by
    have hne : (reinit c s₂ v 0).replicas u = s₂.replicas u := by simp [reinit, huv]
    rw [hne]
    exact (congrArg Plumbing.pipeCount (congrFun hplumbing u)).trans (h.pipeCount hu)
  rw [hcount]
  have hfds : ∀ fd, fd ∈ (reinit c s₂ v 0).fds ↔ fd ∈ s.fds ∧ ¬ (s.plumbing v).Holds fd := by
    intro fd
    have hheld : (s₂.replicas v).plumbing = s.plumbing v := congrFun hplumbing v
    rw [reinit_fds, mem_closePipes, hheld]
    simp only [hs₂, cleanupReplica, mem_closePipes, State.plumbing, and_assoc, and_self]
  have hother : ∀ r ≠ v, (reinit c s₂ v 0).replicas r = s₂.replicas r := fun r hr => by
    simp [reinit, hr]
  have hlive : PlumbedAt c.extPipes c.pipeCount (fun r => r < c.repCount ∧ r ≠ v)
      (reinit c s₂ v 0).fds (reinit c s₂ v 0).plumbing := by
    refine (PlumbedAt.drop h hv hfds).congr (fun _ => id) fun r hr => ?_
    rw [← hplumbing]
    exact congrArg Replica.plumbing (hother r hr.2)
  have hpipes := hlive.newPipes (fun hlv => hlv.2 rfl) (by simp [reinit, initReplica])
  set s₄ := newPipes c (reinit c s₂ v 0) v c.pipeCount with hs₄
  have hsame := samePipes_balance c { s₄ with
    procs := Function.update s₄.procs v (s₄.procs u)
    log := .started v s₄.now :: s₄.log } (sched 2)
  have hplumbed : Plumbed c s₄ := by
    refine hpipes.congr (fun r hr => ?_) fun _ _ => rfl
    rcases eq_or_ne r v with rfl | hrv
    · exact .inr rfl
    · exact .inl ⟨hr, hrv⟩
  refine ⟨⟨rfl, rfl, rfl, rfl, rfl, rfl⟩, hplumbed.congr hsame.fds hsame.plumbing, rfl, rfl,
    fun r hr p => ?_, rfl, rfl, rfl⟩
  rw [vot_balance, ← hvot]
  have h₄ : s₄.replicas r = s₂.replicas r := by
    rw [hs₄, ← hother r hr]
    simp [newPipes, hr]
  simp only [State.vot, h₄]

/-- The effect of `startReplicas`: every slot has new, empty pipes and a new process. -/
structure Restarted (c : Config) (s t : State) : Prop extends Frame s t where
  plumbed : Plumbed c t
  timerStarted : t.timerStarted = s.timerStarted
  extOut : t.extOut = s.extOut
  count : ∀ r < c.repCount, ∀ p, (t.vot r p).buffCount =
    if p < (s.replicas r).pipeCount then 0 else (s.vot r p).buffCount
  index : ∀ r < c.repCount, ∀ p, (t.vot r p).buffIndex =
    if p < (s.replicas r).pipeCount then 0 else (s.vot r p).buffIndex
  queue : ∀ r p, t.queue r p = if r < c.repCount ∧ p < c.pipeCount then [] else s.queue r p
  procs : ∀ r, t.procs r = if r < c.repCount then ⟨false, fun _ => []⟩ else s.procs r
  log : t.log = (List.range c.repCount).reverse.map (Event.started · s.now) ++ s.log

/-- Emptying all slots. -/
theorem loop_reinit (h0 : 0 ∈ s.fds) (hext : ∀ p < c.pipeCount, (c.extPipes p).fdIn ∈ s.fds)
    (hfree : ∀ r < c.repCount, ∀ p < c.pipeCount, ¬ (s.plumbing r).Holds (c.extPipes p).fdIn) :
    ∃ reps fds, loop (fun r s => reinit c s r r) c.repCount s =
        { s with replicas := reps, fds := fds } ∧
      0 ∈ fds ∧ (∀ p < c.pipeCount, (c.extPipes p).fdIn ∈ fds) ∧
      ∀ r < c.repCount, (reps r).pipeCount = 0 ∧ ∀ p, (reps r).votPipes p =
        if p < (s.replicas r).pipeCount then resetVotePipe (s.vot r p) else s.vot r p := by
  have hloop := loop_induction (n := c.repCount) (s := s) (f := fun r s => reinit c s r r)
    (fun k t => ∃ reps fds, t = { s with replicas := reps, fds := fds } ∧ 0 ∈ fds ∧
      (∀ p < c.pipeCount, (c.extPipes p).fdIn ∈ fds) ∧ (∀ r, k ≤ r → reps r = s.replicas r) ∧
      ∀ r < k, (reps r).pipeCount = 0 ∧ ∀ p, (reps r).votPipes p =
        if p < (s.replicas r).pipeCount then resetVotePipe (s.vot r p) else s.vot r p)
    ⟨s.replicas, s.fds, rfl, h0, hext, fun _ _ => rfl, fun r hr => absurd hr r.not_lt_zero⟩ ?_
  · obtain ⟨reps, fds, heq, h0', hext', -, hreps⟩ := hloop
    exact ⟨reps, fds, heq, h0', hext', hreps⟩
  · rintro k hk t ⟨reps, fds, rfl, h0', hext', hrest, hdone⟩
    refine ⟨Function.update reps k (initReplica (reps k) k c.replicaPriority fds).1,
      closePipes (reps k) fds, rfl, mem_closePipes.mpr ⟨h0', fun hh => hh.1 rfl⟩,
      fun p hp => mem_closePipes.mpr ⟨hext' p hp, ?_⟩, fun r hr => ?_, fun r hr => ?_⟩
    · rw [hrest k le_rfl]
      exact hfree k hk p hp
    · have hrk : r ≠ k := by omega
      rw [Function.update_of_ne hrk]
      exact hrest r (by omega)
    · rcases Nat.lt_succ_iff_lt_or_eq.mp hr with hlt | rfl
      · rw [Function.update_of_ne hlt.ne]
        exact hdone r hlt
      · rw [Function.update_self, hrest r le_rfl]
        exact ⟨rfl, fun p => rfl⟩

/-- Giving every slot new pipes. -/
theorem loop_newPipes (h0 : 0 ∈ s.fds) (hext : ∀ p < c.pipeCount, (c.extPipes p).fdIn ∈ s.fds)
    (hempty : ∀ r < c.repCount, (s.replicas r).pipeCount = 0) :
    ∃ reps fds queue, loop (fun r s => newPipes c s r c.pipeCount) c.repCount s =
        { s with replicas := reps, fds := fds, queue := queue } ∧
      PlumbedAt c.extPipes c.pipeCount (· < c.repCount) fds (fun r => (reps r).plumbing) ∧
      (∀ r < c.repCount, ∀ p, ((reps r).votPipes p).buffCount = (s.vot r p).buffCount ∧
        ((reps r).votPipes p).buffIndex = (s.vot r p).buffIndex) ∧
      ∀ r p, queue r p = if r < c.repCount ∧ p < c.pipeCount then [] else s.queue r p := by
  have hloop := loop_induction (n := c.repCount) (s := s)
    (f := fun r s => newPipes c s r c.pipeCount)
    (fun k t => (∃ reps fds queue, t = { s with replicas := reps, fds := fds, queue := queue } ∧
      (∀ r, k ≤ r → reps r = s.replicas r) ∧
      (∀ r < k, ∀ p, ((reps r).votPipes p).buffCount = (s.vot r p).buffCount ∧
        ((reps r).votPipes p).buffIndex = (s.vot r p).buffIndex) ∧
      ∀ r p, queue r p = if r < k ∧ p < c.pipeCount then [] else s.queue r p) ∧
      PlumbedAt c.extPipes c.pipeCount (· < k) t.fds t.plumbing) ?_ ?_
  · obtain ⟨⟨reps, fds, queue, heq, -, hvot, hqueue⟩, hpl⟩ := hloop
    rw [heq] at hpl
    exact ⟨reps, fds, queue, heq, hpl, hvot, hqueue⟩
  · refine ⟨⟨s.replicas, s.fds, s.queue, rfl, fun _ _ => rfl, ?_, by simp⟩, h0, hext, ?_, ?_,
      fun r _ hr => absurd hr r.not_lt_zero, ?_⟩
    all_goals exact fun r hr => absurd hr r.not_lt_zero
  · rintro k hk t ⟨⟨reps, fds, queue, rfl, hrest, hvot, hqueue⟩, hpl⟩
    have hrep : (reps k).pipeCount = 0 := by
      rw [hrest k le_rfl]
      exact hempty k hk
    refine ⟨⟨_, _, _, rfl, fun r hr => ?_, fun r hr p => ?_, fun r p => ?_⟩, ?_⟩
    · have hrk : r ≠ k := by omega
      rw [Function.update_of_ne hrk]
      exact hrest r (by omega)
    · rcases Nat.lt_succ_iff_lt_or_eq.mp hr with hlt | rfl
      · rw [Function.update_of_ne hlt.ne]
        exact hvot r hlt p
      · rw [Function.update_self]
        dsimp only
        rw [createPipes_votPipes VotePipe.buffCount (fun _ _ _ _ => rfl),
          createPipes_votPipes VotePipe.buffIndex (fun _ _ _ _ => rfl), hrest r le_rfl]
        exact ⟨rfl, rfl⟩
    · rcases eq_or_ne r k with rfl | hrk
      · simp [hqueue]
      · have hiff : r < k + 1 ↔ r < k := by omega
        simp [hrk, hqueue, hiff]
    · refine (hpl.newPipes (lt_irrefl k) hrep).congr (fun r hr => ?_) fun _ _ => rfl
      exact Nat.lt_succ_iff_lt_or_eq.mp hr

theorem restarted_startReplicas (h0 : 0 ∈ s.fds)
    (hext : ∀ p < c.pipeCount, (c.extPipes p).fdIn ∈ s.fds)
    (hfree : ∀ r < c.repCount, ∀ p < c.pipeCount,
      ¬ (s.plumbing r).Holds (c.extPipes p).fdIn) :
    Restarted c s (startReplicas c s) := by
  obtain ⟨reps, fds, heq, h0', hext', hreps⟩ := loop_reinit h0 hext hfree
  obtain ⟨reps', fds', queue, heq', hpl, hvot, hqueue⟩ := loop_newPipes (c := c)
    (s := { s with replicas := reps, fds := fds }) h0' hext' fun r hr => (hreps r hr).1
  have hlast := loop_induction (n := c.repCount)
    (s := { s with replicas := reps', fds := fds', queue := queue })
    (f := fun r s => { s with
      procs := Function.update s.procs r ⟨false, fun _ => []⟩
      log := .started r s.now :: s.log })
    (fun k t => ∃ procs, t = { s with
        replicas := reps', fds := fds', queue := queue, procs := procs
        log := (List.range k).reverse.map (Event.started · s.now) ++ s.log } ∧
      ∀ r, procs r = if r < k then ⟨false, fun _ => []⟩ else s.procs r)
    ⟨s.procs, rfl, fun r => by simp⟩ ?_
  · obtain ⟨procs, hlast, hprocs⟩ := hlast
    simp only [startReplicas, heq, heq', hlast]
    refine ⟨⟨rfl, rfl, rfl, rfl, rfl, rfl⟩, hpl, rfl, rfl, fun r hr p => ?_, fun r hr p => ?_,
      hqueue, hprocs, rfl⟩
    · refine ((hvot r hr p).1.trans (congrArg _ ((hreps r hr).2 p))).trans ?_
      split <;> rfl
    · refine ((hvot r hr p).2.trans (congrArg _ ((hreps r hr).2 p))).trans ?_
      split <;> rfl
  · rintro k _ t ⟨procs, rfl, hprocs⟩
    refine ⟨Function.update procs k ⟨false, fun _ => []⟩, by simp [List.range_succ],
      fun r => ?_⟩
    rcases eq_or_ne r k with rfl | hrk
    · simp
    · have hiff : r < k + 1 ↔ r < k := by omega
      simp [hrk, hprocs, hiff]

end S3RES.VoterD
