import S3RES.VoterD.Ledger

/-!
# Reads that block

The replica loop reads every pipe whose descriptor `select` has reported. Between the
`select` and the read a vote may have restarted the replica: its descriptors were closed,
and the new ones got the lowest free numbers, which may be the reported ones.
`blocks_iff`: exactly then, and as long as the fork has not written, a read blocks;
`never_blocks` is the statement about runs.
-/

namespace S3RES.VoterD

open StepSystem

variable {c : Config} {s t : State} {r u v p : ℕ}

/-- Slot `r` was restarted since `select` returned. -/
def ReplacedInPass (r : ℕ) (log : List Event) : Prop :=
  ∃ e ∈ log.takeWhile (· ≠ .selected), e.starts r

instance (r : ℕ) (log : List Event) : Decidable (ReplacedInPass r log) :=
  inferInstanceAs (Decidable (∃ e ∈ _, _))

/-- The descriptors reported, and pipe and replica of the next round of the replica loop. -/
def Point.round : Point → Option (List ℕ × ℕ × ℕ)
  | .scan ready ((p, r) :: _) => some (ready, p, r)
  | _ => none

/-- A replica that was restarted since `select` returned is not read before it has written. -/
def NoStaleRead (s : State) : Act → Prop
  | .scan => ∀ x ∈ s.point.round, IsSet s x.1 x.2.1 x.2.2 → ReplacedInPass x.2.2 s.log →
    s.queue x.2.2 x.2.1 ≠ []
  | _ => True

instance (s : State) : ∀ a, Decidable (NoStaleRead s a)
  | .scan => inferInstanceAs (Decidable (∀ x ∈ s.point.round, IsSet s x.1 x.2.1 x.2.2 →
    ReplacedInPass x.2.2 s.log → s.queue x.2.2 x.2.1 ≠ []))
  | .update _ | .select | .external _ | .wake | .vote _ | .replicaWrites _ _ _
  | .replicaReads _ _ _ | .externalWrites _ _ | .tick _ => inferInstanceAs (Decidable True)

/-- The descriptors reported and the rounds left in the pass, the one that waits included. -/
def Point.pass (c : Config) : Point → Option (List ℕ × List (ℕ × ℕ))
  | .external ready => some (ready, rounds c)
  | .scan ready todo => some (ready, todo)
  | .blocked p r ready todo => some (ready, (p, r) :: todo)
  | .vote _ ready todo => some (ready, todo)
  | _ => none

/-- The rounds left are on pipes that hold something, restarted replicas aside. -/
def Backed (s : State) (ready : List ℕ) (todo : List (ℕ × ℕ)) : Prop :=
  ∀ p r, (p, r) ∈ todo → IsSet s ready p r → ¬ ReplacedInPass r s.log → s.queue r p ≠ []

/-- The invariant: the rounds left are distinct and on pipes that hold something. -/
def Fresh (c : Config) (s : State) : Prop :=
  ∀ ready todo, s.point.pass c = some (ready, todo) → todo.Nodup ∧ Backed s ready todo

theorem ReplacedInPass.append {l log : List Event} (hl : ∀ e ∈ l, e ≠ .selected)
    (h : ReplacedInPass r log) : ReplacedInPass r (l ++ log) := by
  obtain ⟨e, he, hstarts⟩ := h
  refine ⟨e, ?_, hstarts⟩
  rw [List.takeWhile_append_of_pos (by simpa using hl)]
  exact List.mem_append_right _ he

/-- What keeps descriptors, unread bytes and restarts keeps the rounds backed. -/
theorem Backed.mono {ready : List ℕ} {todo todo' : List (ℕ × ℕ)} (h : Backed s ready todo)
    (hsub : todo' ⊆ todo) (hlog : ∃ l, t.log = l ++ s.log ∧ ∀ e ∈ l, e ≠ .selected)
    (hkeep : ∀ p r, (p, r) ∈ todo' → (t.vot r p).fdIn ≠ 0 → ¬ ReplacedInPass r t.log →
      (t.vot r p).fdIn = (s.vot r p).fdIn ∧ (s.queue r p ≠ [] → t.queue r p ≠ [])) :
    Backed t ready todo' := by
  intro p r hmem hset hfresh
  obtain ⟨hfd, hqueue⟩ := hkeep p r hmem hset.1 hfresh
  obtain ⟨l, hl, hselected⟩ := hlog
  refine hqueue (h p r (hsub hmem) ⟨hfd ▸ hset.1, hfd ▸ hset.2⟩ fun hreplaced => hfresh ?_)
  rw [hl]
  exact hreplaced.append hselected

theorem fdIn_eq_of_plumbing (h : t.plumbing = s.plumbing) (r p : ℕ) :
    (t.vot r p).fdIn = (s.vot r p).fdIn :=
  congrFun (congrArg Plumbing.votIn (congrFun h r)) p

section Backed

variable {ready : List ℕ} {todo todo' : List (ℕ × ℕ)} (h : Backed s ready todo)
  (hsub : todo' ⊆ todo) (hrange : ∀ x ∈ todo', x ∈ rounds c)
include h hsub hrange

theorem Backed.quiet (hplumbed : Plumbed c s) (hquiet : Quiet c s t)
    (hlog : ∃ l, t.log = l ++ s.log ∧ ∀ e ∈ l, e ≠ .selected) : Backed t ready todo' := by
  refine h.mono hsub hlog fun p r hpr hne _ => ?_
  have hfd := fdIn_eq_of_plumbing hquiet.plumbing r p
  obtain ⟨hp, hr⟩ := mem_rounds.mp (hrange _ hpr)
  have hout := (hplumbed.fdIn_ne_zero_iff hr hp).mp (hfd ▸ hne)
  exact ⟨hfd, fun hqueue => by rwa [hquiet.queue p hout]⟩

omit hrange in
/-- A vote that forwards reads nothing. -/
theorem Backed.sendPipe (hsynced : Synced c s p) (hu : u < c.repCount) :
    Backed (sendPipe c s p u) ready todo' := by
  have hsame := samePipes_sendPipe hsynced hu
  refine h.mono hsub ?_ fun p r _ _ _ => ⟨fdIn_eq_of_plumbing hsame.plumbing r p, fun hqueue => ?_⟩
  · rw [log_sendPipe hsynced hu]
    split
    · exact ⟨[], rfl, by simp⟩
    · exact ⟨[.forwarded p], rfl, by simp⟩
  · rwa [hsame.queue]

/-- A restart leaves the other replicas' pipes alone, and its slot counts as replaced. -/
theorem Backed.refork (hreforked : Reforked c s t u v) : Backed t ready todo' := by
  obtain ⟨forwards, hlog, hmem⟩ := hreforked.log
  have hselected : ∀ e ∈ forwards ++ [.started v s.now], e ≠ .selected := by
    intro e he
    rcases List.mem_append.mp he with he | he
    · obtain ⟨q, -, -, -, rfl⟩ := (hmem e).mp he
      simp
    · simp [List.mem_singleton.mp he]
  have hlog' : t.log = (forwards ++ [.started v s.now]) ++ s.log := by simp [hlog]
  refine h.mono hsub ⟨_, hlog', hselected⟩ fun p r hpr hne hfresh => ?_
  obtain ⟨hp, hr⟩ := mem_rounds.mp (hrange _ hpr)
  have hrv : r ≠ v := by
    rintro rfl
    refine hfresh ⟨.started r s.now, ?_, by simp [Event.starts]⟩
    rw [hlog', List.takeWhile_append_of_pos (by simpa using hselected)]
    simp
  have hout := (hreforked.plumbed.fdIn_ne_zero_iff hr hp).mp hne
  refine ⟨?_, fun hqueue => ?_⟩
  · rw [(hreforked.replaced p hp hout).others r hr hrv]
    rfl
  · rwa [hreforked.queue p hp hout, if_neg hrv]

omit hrange in
/-- A read of one pipe leaves the others. -/
theorem Backed.read (hread : ReadFrom s t r p) (hnot : (p, r) ∉ todo') :
    Backed t ready todo' := by
  refine h.mono hsub ?_ fun p' r' hpr _ _ =>
    ⟨fdIn_eq_of_plumbing hread.plumbing r' p', fun hqueue => ?_⟩
  · by_cases hfits : Fits s r p
    · exact ⟨[.taken r p (chunk s r p)], hread.log hfits, by simp⟩
    · exact ⟨[], hread.log_of_full hfits, by simp⟩
  · have hne : ¬ (r' = r ∧ p' = p) := by
      rintro ⟨rfl, rfl⟩
      exact hnot hpr
    rwa [hread.queue, if_neg hne]

end Backed

/-- What `select` reports for a replica's pipe holds something. -/
theorem queue_ne_nil_of_readable (hplumbed : Plumbed c s) (hr : r < c.repCount)
    (hp : p < c.pipeCount) (hne : (s.vot r p).fdIn ≠ 0)
    (h : readable c s (s.vot r p).fdIn = true) : s.queue r p ≠ [] := by
  simp only [readable, Bool.or_eq_true, List.any_eq_true, List.mem_range, decide_eq_true_eq] at h
  rcases h with ⟨q, hq, heq, -⟩ | ⟨r', hr', p', hp', heq, hqueue⟩
  · exact absurd heq.symm (hplumbed.fdIn_ne_ext hr hp hq hne)
  · obtain ⟨rfl, rfl⟩ := hplumbed.fdIn_injective hr hr' hp hp' hne heq.symm
    exact hqueue

theorem nodup_rounds (c : Config) : (rounds c).Nodup :=
  List.nodup_range.product List.nodup_range

theorem log_processData (c : Config) (s : State) (p : ℕ) (sched : ℕ → Bool) :
    ∃ l, (processData c s p sched).log = l ++ s.log ∧ ∀ e ∈ l, e ≠ .selected := by
  have hlog : (balance c (startTimer c.timerStartIndex s p) sched).log = s.log := by
    obtain ⟨_, _, _, heq⟩ := startTimer_eq c.timerStartIndex s p
    rw [heq]
    rfl
  simp only [processData, loop_writeBuffer]
  split
  · exact ⟨[], hlog, by simp⟩
  · exact ⟨[.delivered p _], by rw [← hlog]; rfl, by simp⟩

theorem log_readExternal (c : Config) (s : State) (p : ℕ) (sched : ℕ → ℕ → Bool) :
    ∃ l, (readExternal c s p sched).log = l ++ s.log ∧ ∀ e ∈ l, e ≠ .selected := by
  simp only [readExternal]
  split
  · exact ⟨[], rfl, by simp⟩
  · exact log_processData c _ p (sched 0)

theorem fresh_of_pass {ready : List ℕ} {todo : List (ℕ × ℕ)}
    (hpass : s.point.pass c = some (ready, todo)) (h : todo.Nodup ∧ Backed s ready todo) :
    Fresh c s := by
  intro ready' todo' hpass'
  rw [hpass, Option.some.injEq, Prod.mk.injEq] at hpass'
  obtain ⟨rfl, rfl⟩ := hpass'
  exact h

theorem fresh_of_none (hpass : s.point.pass c = none) : Fresh c s := by
  intro ready todo hpass'
  simp [hpass] at hpass'

theorem log_of_eq (h : t.log = s.log) : ∃ l, t.log = l ++ s.log ∧ ∀ e ∈ l, e ≠ .selected :=
  ⟨[], h, by simp⟩

/-- A round that reads leaves the rounds behind it backed. -/
theorem fresh_readReplica {ready : List ℕ} {todo : List (ℕ × ℕ)} (hne : s.queue r p ≠ [])
    (hnodup : ((p, r) :: todo).Nodup) (hbacked : Backed s ready ((p, r) :: todo)) :
    Fresh c (readReplica s p r ready todo) := by
  obtain ⟨hread, hpoint⟩ := readFrom_readReplica hne ready todo
  have hpass : (readReplica s p r ready todo).point.pass c = some (ready, todo) := by
    rw [hpoint]
    split <;> rfl
  exact fresh_of_pass hpass ⟨hnodup.of_cons,
    hbacked.read (List.subset_cons_self _ _) hread (List.nodup_cons.mp hnodup).1⟩

/-- The next round of the replica loop. -/
theorem fresh_scan (hwf : WellFormed c s) (h : Fresh c s) (ht : t ∈ step c s .scan) :
    Fresh c t := by
  have hrange := hwf.inRange
  cases hpoint : s.point <;> simp only [step, hpoint, Option.mem_def, reduceCtorEq] at ht
  rename_i ready todo
  rw [hpoint] at hrange
  obtain ⟨hnodup, hbacked⟩ := h ready todo (by rw [hpoint]; rfl)
  rcases todo with _ | ⟨⟨p, r⟩, todo⟩
  · obtain rfl := Option.some.inj ht
    exact fresh_of_none rfl
  have htail : ∀ x ∈ todo, x ∈ rounds c := fun x hx => hrange x (List.mem_cons_of_mem _ hx)
  have hquiet := quiet_startTimer (c := c) c.timerStopIndex s p
  have hlog : (startTimer c.timerStopIndex s p).log = s.log := by
    obtain ⟨_, _, _, heq⟩ := startTimer_eq c.timerStopIndex s p
    rw [heq]
  have hstarted : Backed (startTimer c.timerStopIndex s p) ready ((p, r) :: todo) :=
    hbacked.quiet (fun _ => id) hrange hwf.plumbed hquiet (log_of_eq hlog)
  dsimp only at ht
  split at ht
  · split at ht
    · obtain rfl := Option.some.inj ht
      exact fresh_of_pass rfl ⟨hnodup, hstarted⟩
    · rename_i hne
      obtain rfl := Option.some.inj ht
      exact fresh_readReplica hne hnodup hstarted
  · obtain rfl := Option.some.inj ht
    exact fresh_of_pass rfl ⟨hnodup.of_cons, hbacked.quiet (List.subset_cons_self _ _) htail
      hwf.plumbed ((Quiet.refl s).setPoint _) (log_of_eq rfl)⟩

/-- The vote behind a round. -/
theorem fresh_vote {sched : ℕ → ℕ → Bool} (hwf : WellFormed c s) (h : Fresh c s)
    (ht : t ∈ step c s (.vote sched)) : Fresh c t := by
  have hrange := hwf.inRange
  cases hpoint : s.point <;> simp only [step, hpoint, Option.mem_def, Option.some.injEq,
    reduceCtorEq] at ht
  rename_i p ready todo
  rw [hpoint] at hrange
  obtain ⟨hp, hout, htodo⟩ := hrange
  obtain ⟨hnodup, hbacked⟩ := h ready todo (by rw [hpoint]; rfl)
  have hquiet : Quiet c s (balance c s (sched 0)) := quiet_balance s (sched 0)
  have hsynced : ∀ q < c.pipeCount, c.IsOut q → Synced c (balance c s (sched 0)) q :=
    fun q hq hqout => hquiet.synced (hwf.synced q hq hqout)
  have hplumbed := hquiet.plumbed hwf.plumbed
  have hbalanced := hbacked.quiet (fun _ => id) htodo hwf.plumbed hquiet (log_of_eq rfl)
  have hvote : Backed (checkSDC c (balance c s (sched 0)) p sched) ready todo := by
    cases checkSDC_cases (hsynced p hp hout) hwf.pos sched with
    | sent u hu heq _ =>
      rw [heq]
      exact hbalanced.sendPipe (fun _ => id) (hsynced p hp hout) hu
    | outvoted u v sched' _ hu hv huv heq _ _ =>
      rw [heq]
      exact hbalanced.refork (fun _ => id) htodo (reforked_restartPrep hplumbed
        (fun q hq hqout => (hsynced q hq hqout).but v) hu hv huv sched')
    | tied _ heq _ =>
      rw [heq]
      exact hbalanced
  subst ht
  exact fresh_of_pass rfl ⟨hnodup, hvote⟩

/-- One step keeps the rounds left backed. -/
theorem fresh_step {a : Act} (hwf : WellFormed c s) (h : Fresh c s) (ht : t ∈ step c s a) :
    Fresh c t := by
  cases a with
  | update sched =>
    cases hpoint : s.point <;> simp only [step, hpoint, Option.mem_def, Option.some.injEq,
      reduceCtorEq] at ht
    exact ht ▸ fresh_of_none rfl
  | select =>
    cases hpoint : s.point <;> simp only [step, hpoint, Option.mem_def, reduceCtorEq] at ht
    split at ht
    · obtain rfl := Option.some.inj ht
      exact fresh_of_none rfl
    · obtain rfl := Option.some.inj ht
      refine fresh_of_pass rfl ⟨nodup_rounds c, fun p r hpr hset _ => ?_⟩
      obtain ⟨hp, hr⟩ := mem_rounds.mp hpr
      exact queue_ne_nil_of_readable hwf.plumbed hr hp hset.1 (List.mem_filter.mp hset.2).2
  | external sched =>
    cases hpoint : s.point <;> simp only [step, hpoint, Option.mem_def, Option.some.injEq,
      reduceCtorEq] at ht
    rename_i ready
    subst ht
    obtain ⟨hnodup, hbacked⟩ := h ready (rounds c) (by rw [hpoint]; rfl)
    refine fresh_of_pass rfl ⟨hnodup, ?_⟩
    cases hfind : externalPipe c ready with
    | none =>
      exact hbacked.quiet (fun _ => id) (fun _ => id) hwf.plumbed ((Quiet.refl s).setPoint _)
        (log_of_eq rfl)
    | some p =>
      exact hbacked.quiet (fun _ => id) (fun _ => id) hwf.plumbed
        ((quiet_readExternal (not_isOut_of_externalPipe hfind) sched).setPoint _)
        (log_readExternal c s p sched)
  | scan => exact fresh_scan hwf h ht
  | wake =>
    cases hpoint : s.point <;> simp only [step, hpoint, Option.mem_def, reduceCtorEq] at ht
    rename_i p r ready todo
    obtain ⟨hnodup, hbacked⟩ := h ready ((p, r) :: todo) (by rw [hpoint]; rfl)
    split at ht
    · simp at ht
    · rename_i hne
      obtain rfl := Option.some.inj ht
      exact fresh_readReplica hne hnodup hbacked
  | vote sched => exact fresh_vote hwf h ht
  | replicaWrites r p bytes =>
    simp only [step, Option.mem_def, Option.ite_none_right_eq_some, Option.some.injEq] at ht
    obtain ⟨-, rfl⟩ := ht
    intro ready todo hpass
    obtain ⟨hnodup, hbacked⟩ := h ready todo hpass
    refine ⟨hnodup, hbacked.mono (fun _ => id) (log_of_eq rfl)
      fun q r' _ _ _ => ⟨rfl, fun hne => ?_⟩⟩
    change (s.setQueue r p (s.queue r p ++ bytes)).queue r' q ≠ []
    rw [queue_setQueue]
    split
    · rename_i heq
      obtain ⟨rfl, rfl⟩ := heq
      exact List.append_ne_nil_of_left_ne_nil hne bytes
    · exact hne
  | replicaReads r p n =>
    simp only [step, Option.mem_def, Option.ite_none_right_eq_some, Option.some.injEq] at ht
    obtain ⟨⟨hr, hp, hin⟩, rfl⟩ := ht
    intro ready todo hpass
    obtain ⟨hnodup, hbacked⟩ := h ready todo hpass
    refine ⟨hnodup, fun q r' hpr hset hfresh => ?_⟩
    rw [queue_setQueue, if_neg]
    · exact hbacked q r' hpr hset hfresh
    · rintro ⟨rfl, rfl⟩
      exact hin ((hwf.plumbed.fdIn_ne_zero_iff hr hp).mp hset.1)
  | externalWrites p bytes =>
    simp only [step, Option.mem_def, Option.ite_none_right_eq_some, Option.some.injEq] at ht
    obtain ⟨-, rfl⟩ := ht
    exact h
  | tick d =>
    simp only [step, Option.mem_def, Option.some.injEq] at ht
    subst ht
    exact h

theorem fresh_of_reaches {ok : State → Act → Prop} {s₀ : State} (hinit : Initial c s₀)
    (hreach : Reaches (step c) ok s₀ s) : Fresh c s := by
  have h := hreach.invariant (I := fun s => WellFormed c s ∧ Fresh c s)
    ⟨hinit.wellFormed, fun ready todo hpass => by simp [hinit.point, Point.pass] at hpass⟩
    fun s a t hs _ ht => ⟨wellFormed_step hs.1 ht, fresh_step hs.1 hs.2 ht⟩
  exact h.2

/-- A read starts to block in a round of the replica loop that finds its pipe empty. -/
theorem blocked_of_step {a : Act} {ready : List ℕ} {todo : List (ℕ × ℕ)} (ht : t ∈ step c s a)
    (hblocked : t.point = .blocked p r ready todo) (hnot : s.point ≠ .blocked p r ready todo) :
    a = .scan ∧ s.point = .scan ready ((p, r) :: todo) ∧ IsSet s ready p r ∧ s.queue r p = [] := by
  cases a with
  | update | select | external | vote =>
    cases hpoint : s.point <;> simp only [step, hpoint, Option.mem_def, Option.some.injEq,
      reduceCtorEq] at ht
    · first
        | (subst ht; simp at hblocked)
        | (split at ht <;> (obtain rfl := Option.some.inj ht; simp at hblocked))
  | scan =>
    cases hpoint : s.point <;> simp only [step, hpoint, Option.mem_def, reduceCtorEq] at ht
    rename_i ready' todo'
    rcases todo' with _ | ⟨⟨p', r'⟩, todo'⟩
    · obtain rfl := Option.some.inj ht
      simp at hblocked
    have hqueue : (startTimer c.timerStopIndex s p').queue = s.queue := by
      obtain ⟨_, _, _, heq⟩ := startTimer_eq c.timerStopIndex s p'
      rw [heq]
    dsimp only at ht
    split at ht
    · rename_i hset
      split at ht
      · rename_i hempty
        rw [hqueue] at hempty
        obtain rfl := Option.some.inj ht
        simp only [Point.blocked.injEq] at hblocked
        obtain ⟨rfl, rfl, rfl, rfl⟩ := hblocked
        exact ⟨rfl, rfl, hset, hempty⟩
      · rename_i hne
        obtain rfl := Option.some.inj ht
        rw [(readFrom_readReplica hne ready' todo').2] at hblocked
        split at hblocked <;> simp at hblocked
    · obtain rfl := Option.some.inj ht
      simp at hblocked
  | wake =>
    cases hpoint : s.point <;> simp only [step, hpoint, Option.mem_def, reduceCtorEq] at ht
    rename_i p' r' ready' todo'
    split at ht
    · simp at ht
    · rename_i hne
      obtain rfl := Option.some.inj ht
      rw [(readFrom_readReplica hne ready' todo').2] at hblocked
      split at hblocked <;> simp at hblocked
  | replicaWrites | replicaReads | externalWrites =>
    simp only [step, Option.mem_def, Option.ite_none_right_eq_some, Option.some.injEq] at ht
    obtain ⟨-, rfl⟩ := ht
    exact absurd hblocked hnot
  | tick d =>
    simp only [step, Option.mem_def, Option.some.injEq] at ht
    subst ht
    exact absurd hblocked hnot

/-- In every reachable state, the next round of the replica loop blocks exactly if its
replica was restarted since `select` returned, its descriptor is one that was reported, and
the fork has not written. -/
theorem blocks_iff {s₀ : State} (hinit : Initial c s₀)
    (hreach : Reaches (step c) (fun _ _ => True) s₀ s) {ready : List ℕ} {todo : List (ℕ × ℕ)}
    (hpoint : s.point = .scan ready ((p, r) :: todo)) :
    (∃ t ∈ step c s .scan, t.point = .blocked p r ready todo) ↔
      ReplacedInPass r s.log ∧ IsSet s ready p r ∧ s.queue r p = [] := by
  constructor
  · rintro ⟨t, ht, hblocked⟩
    obtain ⟨-, -, hset, hempty⟩ := blocked_of_step ht hblocked (by simp [hpoint])
    obtain ⟨-, hbacked⟩ := fresh_of_reaches hinit hreach ready ((p, r) :: todo)
      (by rw [hpoint]; rfl)
    refine ⟨?_, hset, hempty⟩
    by_contra hreplaced
    exact hbacked p r List.mem_cons_self hset hreplaced hempty
  · rintro ⟨-, hset, hempty⟩
    have hqueue : (startTimer c.timerStopIndex s p).queue = s.queue := by
      obtain ⟨_, _, _, heq⟩ := startTimer_eq c.timerStopIndex s p
      rw [heq]
    refine ⟨{ startTimer c.timerStopIndex s p with point := .blocked p r ready todo }, ?_, rfl⟩
    simp only [step, hpoint, if_pos hset, hqueue, if_pos hempty, Option.mem_def]

/-- **No read blocks** in a run that reads no restarted replica before its fork has written. -/
theorem never_blocks {s₀ : State} (hinit : Initial c s₀)
    (hreach : Reaches (step c) (fun s a => NoStaleRead s a) s₀ s) (p r : ℕ) (ready : List ℕ)
    (todo : List (ℕ × ℕ)) : s.point ≠ .blocked p r ready todo := by
  have h := hreach.invariant (I := fun s => (WellFormed c s ∧ Fresh c s) ∧
      ∀ p r ready todo, s.point ≠ .blocked p r ready todo)
    ⟨⟨hinit.wellFormed, fun ready todo hpass => by simp [hinit.point, Point.pass] at hpass⟩,
      by simp [hinit.point]⟩ fun s a t hs hok ht => ?_
  · exact h.2 p r ready todo
  · obtain ⟨⟨hwf, hfresh⟩, hnot⟩ := hs
    refine ⟨⟨wellFormed_step hwf ht, fresh_step hwf hfresh ht⟩, fun p r ready todo hblocked => ?_⟩
    obtain ⟨rfl, hpoint, hset, hempty⟩ := blocked_of_step ht hblocked (hnot p r ready todo)
    obtain ⟨-, hbacked⟩ := hfresh ready ((p, r) :: todo) (by rw [hpoint]; rfl)
    have hok' : IsSet s ready p r → ReplacedInPass r s.log → s.queue r p ≠ [] :=
      hok (ready, p, r) (by rw [hpoint]; rfl)
    by_cases hreplaced : ReplacedInPass r s.log
    · exact hok' hset hreplaced hempty
    · exact hbacked p r List.mem_cons_self hset hreplaced hempty

/-- TMR with a timed and an untimed output. -/
def mapperConfig : Config :=
  parseArgs "TMR" 1000 25 [⟨"RANGE_POSE_DATA", 3, 0, true⟩, ⟨"MOV_CMD", 0, 4, true⟩,
    ⟨"MAP_UPDATE", 0, 5, false⟩] fun _ => zeroPipe

theorem initial_mapper : Initial mapperConfig (start mapperConfig 6) :=
  initial_start (by decide +kernel) (by decide) (by decide +kernel)

/-- Replica 0 writes a wrong byte on pipe 1 and one more on pipe 2, and is replaced in the
middle of the pass. -/
def replacedBeforePipe2 : List Act :=
  [.replicaWrites 0 1 [88], .replicaWrites 1 1 [65], .replicaWrites 2 1 [65],
    .replicaWrites 0 2 [66], .update granted, .select, .external granted, .scan, .scan, .scan,
    .scan, .vote granted, .scan, .vote granted, .scan, .vote granted]

/-- The fork writes before its round. -/
theorem never_blocks_forkWrites :
    (follow (step mapperConfig) (replacedBeforePipe2 ++ [.replicaWrites 0 2 [66], .scan])
      (start mapperConfig 6)).point ≠ .blocked 2 0 [8, 14, 20, 10] [(2, 1), (2, 2)] :=
  never_blocks initial_mapper (reaches_follow (by decide +kernel) (by decide +kernel)) 2 0
    [8, 14, 20, 10] [(2, 1), (2, 2)]

/-- The fork has not written: the voter waits in the read. -/
theorem blocks_replacedBeforePipe2 : ∃ s,
    Reaches (step mapperConfig) (fun _ _ => True) (start mapperConfig 6) s ∧
      ∃ ready todo, s.point = .blocked 2 0 ready todo ∧ s.queue 0 2 = [] :=
  ⟨follow (step mapperConfig) (replacedBeforePipe2 ++ [.scan]) (start mapperConfig 6),
    reaches_follow (allSteps_true _ _) (by decide +kernel), [8, 14, 20, 10], [(2, 1), (2, 2)],
    by decide +kernel⟩

end S3RES.VoterD
