import S3RES.VoterM.Reading

/-!
# Voting and recovery in VoterM

`checkSDC`, `findFaultReplica` and the two branches of `main` that end a round, judged by what
the voter holds of each replica. `majority_vote`: if all replicas but one hold the same output,
exactly this output is sent and at most that one is killed; `closed_recover` says the same of
the branch behind a timeout, and `unanimous_vote` that nobody is killed where all agree.
-/

namespace S3RES.VoterM

open Loop Memory

variable {c : Config} {s t : State} {A : ℕ → List UInt8} {f p r : ℕ}

/-- The voter holds the output `A` of replica `r`, on every pipe. -/
def Holds (c : Config) (A : ℕ → List UInt8) (s : State) (r : ℕ) : Prop :=
  ∀ p < c.outPipeCount, s.held r p = A p

theorem Holds.congr (h : Holds c A s r) (heq : t.held r = s.held r) : Holds c A t r :=
  fun p hp => (congrFun heq p).trans (h p hp)

/-! ### Comparisons -/

theorem countsDiffer_eq (s : State) (p a b : ℕ) : countsDiffer s p a b =
    decide ((s.held a p).length ≠ (s.held b p).length) := by
  simp [countsDiffer, State.held]

theorem contentsDiffer_eq (s : State) (p a b : ℕ) : contentsDiffer s p a b =
    decide (block ((s.replicas a).buffers p) 0 ((s.replicas 0).buffCounts p) ≠
      block ((s.replicas b).buffers p) 0 ((s.replicas 0).buffCounts p)) := by
  rw [contentsDiffer, decide_eq_decide, Ne, memcmp_eq_zero_iff byteDiff_eq_zero_iff]

/-- What the content comparison reads is what is held, where the counts agree. -/
theorem block_eq_held (h : (s.held r p).length = (s.held 0 p).length) :
    block ((s.replicas r).buffers p) 0 ((s.replicas 0).buffCounts p) = s.held r p := by
  have hcount : (s.replicas r).buffCounts p = (s.replicas 0).buffCounts p := by
    simpa [State.held] using h
  rw [State.held, hcount]

/-- Where two of three agree on `x`, the third is blamed, if it differs. -/
theorem checkTmr_of_agree {β : Type*} [DecidableEq β] {X : ℕ → β} {x : β} (hf : f < 3)
    (h : ∀ r < 3, r ≠ f → X r = x) (v : Verdict) :
    checkTmr (fun a b => decide (X a ≠ X b)) v = if X f = x then v else ⟨true, f⟩ := by
  obtain rfl | rfl | rfl : f = 0 ∨ f = 1 ∨ f = 2 := by omega
  · have h1 : X 1 = x := h 1 (by omega) (by omega)
    have h2 : X 2 = x := h 2 (by omega) (by omega)
    by_cases h0 : X 0 = x <;> simp [checkTmr, h0, h1, h2]
  · have h0 : X 0 = x := h 0 (by omega) (by omega)
    have h2 : X 2 = x := h 2 (by omega) (by omega)
    by_cases h1 : X 1 = x
    · simp [checkTmr, h0, h1, h2]
    · simp [checkTmr, h0, Ne.symm h1, h1, h2]
  · have h0 : X 0 = x := h 0 (by omega) (by omega)
    have h1 : X 1 = x := h 1 (by omega) (by omega)
    by_cases h2 : X 2 = x
    · simp [checkTmr, h0, h1, h2]
    · simp [checkTmr, h0, h1, Ne.symm h2, h2]

/-- The loop over the pipes blames the third, if it differs on one of them. -/
theorem loop_checkTmr {β : Type*} [DecidableEq β] {X : ℕ → ℕ → β} {x : ℕ → β} {n : ℕ}
    (hf : f < 3) (h : ∀ p < n, ∀ r < 3, r ≠ f → X p r = x p) (v : Verdict) :
    loop (fun p => checkTmr fun a b => decide (X p a ≠ X p b)) n v =
      if ∀ p < n, X p f = x p then v else ⟨true, f⟩ := by
  refine loop_induction (fun k w => w = if ∀ p < k, X p f = x p then v else ⟨true, f⟩)
    (by simp) fun k hk w hw => ?_
  rw [checkTmr_of_agree hf (h k hk), hw]
  by_cases hsame : X k f = x k
  · have hiff : (∀ p < k + 1, X p f = x p) ↔ ∀ p < k, X p f = x p := by
      constructor
      · exact fun hall p hp => hall p (by omega)
      · intro hall p hp
        rcases Nat.lt_succ_iff_lt_or_eq.mp hp with hlt | rfl
        · exact hall p hlt
        · exact hsame
    rw [if_pos hsame]
    exact if_congr hiff.symm rfl rfl
  · rw [if_neg hsame, if_neg fun hall => hsame (hall k k.lt_succ_self)]

/-! ### The verdict -/

/-- **TMR.** Where all but one hold `A`, that one is blamed exactly if it differs. -/
theorem verdict_of_agree (hthree : c.repCount = 3) (hf : f < 3)
    (h : ∀ r < 3, r ≠ f → Holds c A s r) :
    ((verdict c s).fault = true → (verdict c s).faultIndex = f) ∧
      ((verdict c s).fault = false → Holds c A s f) := by
  have hcounts : loop (fun p => checkTmr (countsDiffer s p)) c.outPipeCount
      ⟨false, s.faultIndex⟩ = if ∀ p < c.outPipeCount, (s.held f p).length = (A p).length then
        ⟨false, s.faultIndex⟩ else ⟨true, f⟩ := by
    have hdiffer : (fun p => checkTmr (countsDiffer s p)) =
        fun p => checkTmr fun a b => decide ((s.held a p).length ≠ (s.held b p).length) := by
      funext p
      exact congrArg checkTmr (funext fun a => funext fun b => countsDiffer_eq s p a b)
    rw [hdiffer]
    exact loop_checkTmr (X := fun p r => (s.held r p).length) hf
      (fun p hp r hr hne => by rw [h r hr hne p hp]) _
  have hverdict : verdict c s =
      if (loop (fun p => checkTmr (countsDiffer s p)) c.outPipeCount ⟨false, s.faultIndex⟩).fault
      then loop (fun p => checkTmr (countsDiffer s p)) c.outPipeCount ⟨false, s.faultIndex⟩
      else loop (fun p => checkTmr (contentsDiffer s p)) c.outPipeCount
        (loop (fun p => checkTmr (countsDiffer s p)) c.outPipeCount ⟨false, s.faultIndex⟩) := by
    simp only [verdict, hthree]
  by_cases hlength : ∀ p < c.outPipeCount, (s.held f p).length = (A p).length
  · -- all counts agree: the contents decide
    rw [if_pos hlength] at hcounts
    have hall : ∀ r < 3, ∀ p < c.outPipeCount, (s.held r p).length = (A p).length := by
      intro r hr p hp
      rcases eq_or_ne r f with rfl | hne
      · exact hlength p hp
      · rw [h r hr hne p hp]
    have hblock : ∀ p < c.outPipeCount, ∀ r < 3,
        block ((s.replicas r).buffers p) 0 ((s.replicas 0).buffCounts p) = s.held r p :=
      fun p hp r hr => block_eq_held ((hall r hr p hp).trans (hall 0 (by omega) p hp).symm)
    have hcontents := loop_checkTmr (n := c.outPipeCount) (x := A) (X := fun p r =>
      block ((s.replicas r).buffers p) 0 ((s.replicas 0).buffCounts p)) hf
      (fun p hp r hr hne => (hblock p hp r hr).trans (h r hr hne p hp)) ⟨false, s.faultIndex⟩
    have hdiffer : (fun p => checkTmr (contentsDiffer s p)) = fun p => checkTmr fun a b =>
        decide (block ((s.replicas a).buffers p) 0 ((s.replicas 0).buffCounts p) ≠
          block ((s.replicas b).buffers p) 0 ((s.replicas 0).buffCounts p)) := by
      funext p
      exact congrArg checkTmr (funext fun a => funext fun b => contentsDiffer_eq s p a b)
    rw [hverdict, hcounts, if_neg (by simp), hdiffer, hcontents]
    split
    · rename_i hsame
      exact ⟨fun hfault => absurd hfault (by simp),
        fun _ p hp => (hblock p hp f hf).symm.trans (hsame p hp)⟩
    · exact ⟨fun _ => rfl, fun hfault => absurd hfault (by simp)⟩
  · rw [if_neg hlength] at hcounts
    rw [hverdict, hcounts, if_pos rfl]
    exact ⟨fun _ => rfl, fun hfault => absurd hfault (by simp)⟩

/-- Where all hold `A`, nobody is blamed. -/
theorem verdict_of_unanimous (h : ∀ r < c.repCount, Holds c A s r) :
    verdict c s = ⟨false, s.faultIndex⟩ := by
  have hcounts : ∀ p < c.outPipeCount, ∀ a < c.repCount, ∀ b < c.repCount,
      countsDiffer s p a b = false := by
    intro p hp a ha b hb
    rw [countsDiffer_eq, h a ha p hp, h b hb p hp]
    simp
  have hcontents : ∀ p < c.outPipeCount, ∀ a < c.repCount, ∀ b < c.repCount,
      contentsDiffer s p a b = false := by
    intro p hp a ha b hb
    have hblock : ∀ r < c.repCount,
        block ((s.replicas r).buffers p) 0 ((s.replicas 0).buffCounts p) = A p := by
      intro r hr
      rw [block_eq_held, h r hr p hp]
      rw [h r hr p hp, h 0 (by omega) p hp]
    rw [contentsDiffer_eq, hblock a ha, hblock b hb]
    simp
  have htmr : ∀ {differ : ℕ → ℕ → ℕ → Bool}, c.repCount = 3 →
      (∀ p < c.outPipeCount, ∀ a < c.repCount, ∀ b < c.repCount, differ p a b = false) →
      loop (fun p => checkTmr (differ p)) c.outPipeCount ⟨false, s.faultIndex⟩ =
        ⟨false, s.faultIndex⟩ := by
    intro differ hthree hsame
    refine loop_induction (fun _ (v : Verdict) => v = ⟨false, s.faultIndex⟩) rfl fun p hp v hv => ?_
    rw [checkTmr, hsame p hp 0 (by omega) 1 (by omega), hsame p hp 0 (by omega) 2 (by omega), hv]
    rfl
  simp only [verdict]
  split
  · rename_i htwo
    refine loop_induction (fun _ (v : Verdict) => v = ⟨false, s.faultIndex⟩) rfl fun p hp v hv => ?_
    rw [checkDmr, hcounts p hp 0 (by omega) 1 (by omega), hcontents p hp 0 (by omega) 1 (by omega),
      hv]
    rfl
  · rename_i hthree
    rw [htmr hthree hcounts, if_neg (by simp), htmr hthree hcontents]
  · rfl

/-! ### Sending -/

/-- The effect of `sendData` from slot `u`. -/
structure Sent (c : Config) (s t : State) (u : ℕ) : Prop where
  extOut : ∀ p, t.extOut p = if p < c.outPipeCount then s.extOut p ++ s.held u p else s.extOut p
  held : ∀ r p, t.held r p = if r < c.repCount ∧ p < c.outPipeCount then [] else s.held r p
  outQueue : t.outQueue = s.outQueue
  procs : t.procs = s.procs
  log : t.log = .sent u :: s.log

theorem loop_writeOut (s : State) (u n : ℕ) : loop (writeOut u) n s = { s with
    extOut := fun p => if p < n then s.extOut p ++ s.held u p else s.extOut p } := by
  refine loop_induction (s := s) (fun k t => t = { s with
    extOut := fun p => if p < k then s.extOut p ++ s.held u p else s.extOut p }) (by simp) ?_
  rintro k _ _ rfl
  have hbelow : ∀ p, p ≠ k → (p < k + 1 ↔ p < k) := by
    intro p hp
    omega
  by_cases hcount : (s.replicas u).buffCounts k = 0
  · -- nothing is held, so nothing is written
    have hheld : s.held u k = [] := buffCounts_eq_zero_iff.mp hcount
    rw [writeOut, if_neg (not_not.mpr hcount)]
    congr 1
    funext p
    rcases eq_or_ne p k with rfl | hp
    · simp [hheld]
    · simp only [hbelow p hp]
  · rw [writeOut, if_pos hcount]
    congr 1
    funext p
    rcases eq_or_ne p k with rfl | hp
    · simp [State.held]
    · simp only [Function.update_of_ne hp, hbelow p hp]

theorem held_clearCount (s : State) (r p r' p' : ℕ) :
    (clearCount r p s).held r' p' = if r' = r ∧ p' = p then [] else s.held r' p' := by
  rcases eq_or_ne r' r with rfl | hr
  · rcases eq_or_ne p' p with rfl | hp
    · simp [State.held, clearCount]
    · simp [State.held, clearCount, hp]
  · simp [State.held, clearCount, hr]

/-- The loops that clear the counts change nothing else. -/
theorem loop_clearCount (s : State) (m n : ℕ) :
    ∃ replicas, loop (fun r s => loop (clearCount r) n s) m s = { s with replicas := replicas } ∧
      ∀ r p, State.held { s with replicas := replicas } r p =
        if r < m ∧ p < n then [] else s.held r p := by
  refine loop_induction (fun k t => ∃ replicas, t = { s with replicas := replicas } ∧
    ∀ r p, State.held { s with replicas := replicas } r p =
      if r < k ∧ p < n then [] else s.held r p) ⟨s.replicas, rfl, by simp⟩ ?_
  rintro k _ _ ⟨replicas, rfl, hheld⟩
  -- the pipes of replica `k`
  have hinner := loop_induction (f := clearCount k) (n := n) (s := { s with replicas := replicas })
    (fun j t => ∃ replicas, t = { s with replicas := replicas } ∧
      ∀ r p, State.held { s with replicas := replicas } r p =
        if r < k ∧ p < n ∨ r = k ∧ p < j then [] else s.held r p)
    ⟨replicas, rfl, fun r p => by simp [hheld r p]⟩ ?_
  · obtain ⟨replicas', hloop, hheld'⟩ := hinner
    refine ⟨replicas', hloop, fun r p => (hheld' r p).trans (if_congr ?_ rfl rfl)⟩
    omega
  · rintro j hj _ ⟨replicas', rfl, hheld'⟩
    refine ⟨_, rfl, fun r p => (held_clearCount _ k j r p).trans ?_⟩
    rw [hheld' r p]
    split_ifs with h₁ h₂ h₃ h₄ h₅
    · rfl
    · omega
    · rfl
    · omega
    · omega
    · rfl

theorem sent_sendData (c : Config) (s : State) (u : ℕ) : Sent c s (sendData c s u) u := by
  obtain ⟨replicas, hloop, hheld⟩ := loop_clearCount
    (loop (writeOut u) c.outPipeCount s) c.repCount c.outPipeCount
  rw [loop_writeOut] at hloop hheld
  have hsend : sendData c s u = { s with
      extOut := fun p => if p < c.outPipeCount then s.extOut p ++ s.held u p else s.extOut p
      replicas := replicas
      log := .sent u :: s.log } := by
    rw [sendData, loop_writeOut, hloop]
  rw [hsend]
  exact ⟨fun p => rfl, hheld, rfl, rfl, rfl⟩

/-! ### The end of a round -/

/-- The round was closed: the output `A` was sent, nothing is held any more, and no replica
was killed but those in `K`. -/
structure Closed (c : Config) (A : ℕ → List UInt8) (K : Set ℕ) (s t : State) : Prop where
  extOut : ∀ p < c.outPipeCount, t.extOut p = s.extOut p ++ A p
  held : ∀ r < c.repCount, ∀ p < c.outPipeCount, t.held r p = []
  log : ∃ l, t.log = l ++ s.log ∧ ∀ r, .killed r ∈ l → r ∈ K

theorem Sent.closed {u : ℕ} (h : Sent c s t u) (hholds : Holds c A s u) (K : Set ℕ) :
    Closed c A K s t := by
  refine ⟨fun p hp => ?_, fun r hr p hp => (h.held r p).trans (if_pos ⟨hr, hp⟩), ?_⟩
  · rw [h.extOut p, if_pos hp, hholds p hp]
  · exact ⟨[.sent u], h.log, by simp⟩

/-- A replica is replaced before the round is closed. -/
theorem closed_recover (hthree : c.repCount = 3) (hindex : s.faultIndex = f)
    (h : ∀ r < 3, r ≠ f → Holds c A s r) :
    Closed c A {f} s (recover c (killAndClean s f)) := by
  have hsender : sender c (startReplicas c (killAndClean s f) false f 1) = (f + 2) % 3 := by
    rw [sender, hthree]
    exact congrArg (fun i => (i + 2) % 3) hindex
  have hholds : Holds c A (startReplicas c (killAndClean s f) false f 1) ((f + 2) % 3) :=
    h _ (Nat.mod_lt _ (by omega)) (by omega)
  have hindex' : (killAndClean s f).faultIndex = f := hindex
  rw [recover, hindex', hsender]
  obtain ⟨hextOut, hheld, l, hlog, hmem⟩ :=
    (sent_sendData c _ ((f + 2) % 3)).closed hholds {f}
  refine ⟨hextOut, hheld, l ++ [.killed f], hlog.trans (by simp [startReplicas, loop_succ,
    startReplica, killAndClean]), fun r hr => ?_⟩
  rcases List.mem_append.mp hr with hr | hr
  · exact hmem r hr
  · exact Event.killed.inj (List.mem_singleton.mp hr)

/-- **The vote.** Where all but one of three hold `A`, this is what is sent. -/
theorem majority_vote (hthree : c.repCount = 3) (hf : f < 3)
    (h : ∀ r < 3, r ≠ f → Holds c A s r) : Closed c A {f} s (vote c s) := by
  obtain ⟨hblamed, hagreed⟩ := verdict_of_agree hthree hf h
  cases hfault : (verdict c s).fault with
  | true =>
    have hindex := hblamed hfault
    have hvote : vote c s = recover c (killAndClean { s with faultIndex := f } f) := by
      simp only [vote, checkSDC, hfault, if_true, recover, hindex]
    rw [hvote]
    obtain ⟨hextOut, hheld, hlog⟩ := closed_recover (s := { s with faultIndex := f }) hthree rfl h
    exact ⟨hextOut, hheld, hlog⟩
  | false =>
    have hvote : vote c s = sendData c { s with faultIndex := (verdict c s).faultIndex } 0 := by
      simp only [vote, checkSDC, hfault, Bool.false_eq_true, if_false]
    have hholds : Holds c A s 0 := by
      rcases eq_or_ne 0 f with rfl | hne
      · exact hagreed hfault
      · exact h 0 (by omega) hne
    rw [hvote]
    obtain ⟨hextOut, hheld, hlog⟩ := (sent_sendData c
      { s with faultIndex := (verdict c s).faultIndex } 0).closed hholds {f}
    exact ⟨hextOut, hheld, hlog⟩

/-- Where all hold `A`, this is what is sent, and nobody is killed. -/
theorem unanimous_vote (hpos : 0 < c.repCount) (h : ∀ r < c.repCount, Holds c A s r) :
    Closed c A ∅ s (vote c s) ∧ (checkSDC c s).1 = false ∧
      (vote c s).outQueue = s.outQueue ∧ (vote c s).procs = s.procs ∧
      (vote c s).log = .sent 0 :: s.log := by
  have hcheck : checkSDC c s = (false, s) := by
    rw [checkSDC, verdict_of_unanimous h]
    rfl
  have hvote : vote c s = sendData c s 0 := by simp [vote, hcheck]
  have hsent := sent_sendData c s 0
  rw [hvote, hcheck]
  exact ⟨hsent.closed (h 0 hpos) ∅, rfl, hsent.outQueue, hsent.procs, hsent.log⟩

/-! ### The replica that is behind -/

theorem repScore_eq (c : Config) (s : State) (r : ℕ) :
    repScore c s r = ((List.range c.outPipeCount).filter fun p => s.held r p ≠ []).length := by
  refine loop_induction (fun k n =>
    n = ((List.range k).filter fun p => s.held r p ≠ []).length) rfl fun k _ n hn => ?_
  have hiff : (s.replicas r).buffCounts k > 0 ↔ s.held r k ≠ [] := by
    rw [gt_iff_lt, Nat.pos_iff_ne_zero, Ne, buffCounts_eq_zero_iff]
  rw [List.range_succ, List.filter_append, List.length_append, hn]
  by_cases hheld : s.held r k = []
  · simp [hiff, hheld]
  · simp [hiff, hheld]

theorem repScore_le (c : Config) (s : State) (r : ℕ) : repScore c s r ≤ c.outPipeCount := by
  rw [repScore_eq]
  exact (List.length_filter_le _ _).trans_eq List.length_range

theorem Holds.repScore_eq {r' : ℕ} (h : Holds c A s r) (h' : Holds c A s r') :
    repScore c s r = repScore c s r' := by
  rw [VoterM.repScore_eq, VoterM.repScore_eq]
  refine congrArg List.length (List.filter_congr fun p hp => ?_)
  rw [h p (List.mem_range.mp hp), h' p (List.mem_range.mp hp)]

/-- Replica `f` is found where the others have output on more pipes, or on as many and `f` is
the first. -/
theorem findFaultReplica_of_lt (hf : f < c.repCount)
    (h : ∀ r < c.repCount, r ≠ f → repScore c s f < repScore c s r ∨ f = 0 ∧
      repScore c s f = repScore c s r) : (findFaultReplica c s).faultIndex = f := by
  have hinv := loop_induction (n := c.repCount) (s := (0, c.outPipeCount))
    (f := fun r (lowest : ℕ × ℕ) =>
      if repScore c s r < lowest.2 then (r, repScore c s r) else lowest)
    (fun k lowest => if f < k then lowest = (f, repScore c s f)
      else repScore c s f < lowest.2 ∨ f = 0 ∧ lowest = (0, c.outPipeCount)) ?_ ?_
  · rw [if_pos hf] at hinv
    rw [findFaultReplica]
    exact congrArg Prod.fst hinv
  · rw [if_neg f.not_lt_zero]
    rcases Nat.eq_zero_or_pos f with rfl | hpos
    · exact .inr ⟨rfl, rfl⟩
    · have hlt := (h 0 (by omega) (by omega)).resolve_right fun h0 => hpos.ne' h0.1
      exact .inl (hlt.trans_le (repScore_le c s 0))
  · intro k hk lowest hlowest
    rcases lt_trichotomy k f with hkf | rfl | hkf
    · -- the replicas before `f` have more output
      have hlt := (h k hk hkf.ne).resolve_right fun h0 => by omega
      rw [if_neg (by omega)] at hlowest ⊢
      split
      · exact .inl hlt
      · exact .inl (hlowest.resolve_right fun h0 => by omega)
    · rw [if_neg (by omega)] at hlowest
      rw [if_pos (by omega)]
      split
      · rfl
      · rename_i hle
        obtain ⟨rfl, rfl⟩ := hlowest.resolve_left hle
        have hscore := repScore_le c s 0
        rw [show repScore c s 0 = c.outPipeCount by omega]
    · rw [if_pos hkf] at hlowest
      rw [if_pos (by omega), hlowest, if_neg]
      rcases h k hk hkf.ne' with hlt | ⟨-, heq⟩ <;> omega

end S3RES.VoterM
