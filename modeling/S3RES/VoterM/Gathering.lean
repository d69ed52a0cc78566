import S3RES.VoterM.Voting

/-!
# Collecting answers

What `collectFromReps` knows of the replicas in a set `G` that answer with `A`, the write on
out pipe `q` last (`Gathering`): their channels are those of an answer under way, and the
count is the number of replicas that were read on `q`, as long as none of the others is read
there twice (`Unrepeated`). `Gathering.step` is preservation by one step of the loop,
`Gathering.holds` says that all answers are complete when the loop is left with the count
full.
-/

namespace S3RES.VoterM

open Delivery Finset

variable {c : Config} {s t : State} {A : ℕ → List UInt8} {G : Set ℕ} {q r p : ℕ}
  {k k' : Collect}

/-- The reads that are left in this pass. -/
def Stage.todo : Stage → List (ℕ × ℕ)
  | .scan todo => todo
  | _ => []

/-- The number of replicas of whom the voter holds something on out pipe `q`. -/
def answered (c : Config) (s : State) (q : ℕ) : ℕ := #{r ∈ range c.repCount | s.held r q ≠ []}

theorem answered_congr (h : t.held = s.held) : answered c t q = answered c s q := by
  rw [answered, answered, h]

theorem answered_le (c : Config) (s : State) (q : ℕ) : answered c s q ≤ c.repCount :=
  (card_filter_le _ _).trans_eq (card_range _)

theorem answered_eq_repCount (h : answered c s q = c.repCount) :
    ∀ r < c.repCount, s.held r q ≠ [] := by
  have hcard : #{r ∈ range c.repCount | s.held r q ≠ []} = #(range c.repCount) := by
    rw [card_range]
    exact h
  exact fun r hr => card_filter_eq_iff.mp hcard r (mem_range.mpr hr)

theorem answered_readOut (hr : r < c.repCount) (hheld : s.held r q = [])
    (hne : s.outQueue r q ≠ []) : answered c (readOut s r q) q = answered c s q + 1 := by
  have hinsert : {r' ∈ range c.repCount | (readOut s r q).held r' q ≠ []} =
      insert r {r' ∈ range c.repCount | s.held r' q ≠ []} := by
    ext r'
    rw [mem_insert, mem_filter, mem_filter]
    rcases eq_or_ne r' r with rfl | hne'
    · exact iff_of_true ⟨mem_range.mpr hr, held_readOut_self hne⟩ (.inl rfl)
    · rw [held_readOut fun h => hne' h.1]
      exact (or_iff_right hne').symm
  rw [answered, hinsert, card_insert_of_notMem (by simp [hheld]), answered]

/-- One loop collects the answers of all replicas. -/
structure Gathering (c : Config) (A : ℕ → List UInt8) (q : ℕ) (G : Set ℕ) (k : Collect)
    (s : State) : Prop where
  setTimer : k.setTimer = true
  expected : k.expected = c.repCount
  awaited : c.timerStopIndex s.activePipeIndex = q
  inTime : s.timeoutOccurred = false
  sound : ∀ r < c.repCount, r ∈ G → Sound c.outs A q (s.channels r) fun p => (r, p) ∈ k.stage.todo
  nodup : k.stage.todo.Nodup
  range : ∀ x ∈ k.stage.todo, x.1 < c.repCount ∧ x.2 < c.outPipeCount
  counted : k.done = false → k.repDone = answered c s q
  unfilled : k.done = false → answered c s q < c.repCount
  full : k.done = true → ∀ r < c.repCount, s.held r q ≠ []
  scanning : k.done = true → ∃ todo, k.stage = .scan todo

/-- The loop counts no replica twice. -/
def Unrepeated (q : ℕ) (k : Collect) (s : State) : Prop :=
  k.done = false → ∀ x ∈ k.stage.todo.head?, x.2 = q → s.held x.1 q = []

/-- After a read the other reads of the pass are left. -/
theorem sound_readOut {r' : ℕ} {todo : List (ℕ × ℕ)}
    (h : Sound c.outs A q (s.channels r') fun p' => (r', p') ∈ (r, p) :: todo)
    (hp : p < c.outPipeCount) (hA : ∀ p < c.outPipeCount, (A p).length ≤ maxPipeBuff)
    (hnotMem : (r, p) ∉ todo) :
    Sound c.outs A q ((readOut s r p).channels r') fun p' => (r', p') ∈ todo := by
  rcases eq_or_ne r' r with rfl | hne
  · rw [channels_readOut ((h.length_queue_le hp).trans (hA p hp))]
    refine h.read hp List.mem_cons_self fun p' => ?_
    constructor
    · intro hmem
      refine ⟨List.mem_cons_of_mem _ hmem, ?_⟩
      rintro rfl
      exact hnotMem hmem
    · rintro ⟨hmem, hne⟩
      rcases List.mem_cons.mp hmem with heq | hmem
      · exact absurd (Prod.mk.inj heq).2 hne
      · exact hmem
  · rw [channels_readOut_ne hne]
    refine h.congr fun p' => ?_
    constructor
    · exact List.mem_cons_of_mem _
    · intro hmem
      rcases List.mem_cons.mp hmem with heq | hmem
      · exact absurd (Prod.mk.inj heq).1 hne
      · exact hmem

/-- The voter reads the next pipe. -/
theorem Gathering.read (h : Gathering c A q G k s) (hA : ∀ p < c.outPipeCount,
    (A p).length ≤ maxPipeBuff) {todo : List (ℕ × ℕ)} (htodo : k.stage = .scan ((r, p) :: todo)) :
    ∀ r' < c.repCount, r' ∈ G →
      Sound c.outs A q ((readOut s r p).channels r') fun p' => (r', p') ∈ todo := by
  intro r' hr' hgood
  have hnodup := h.nodup
  have hsound := h.sound r' hr' hgood
  have hp := (h.range (r, p) (by rw [htodo]; exact List.mem_cons_self)).2
  rw [htodo] at hnodup hsound
  exact sound_readOut hsound hp hA (List.nodup_cons.mp hnodup).1

/-- A read takes away no answer. -/
theorem held_readOut_ne_nil {r' : ℕ} (hne : s.outQueue r p ≠ []) (hheld : s.held r' q ≠ []) :
    (readOut s r p).held r' q ≠ [] := by
  by_cases heq : r' = r ∧ q = p
  · obtain ⟨rfl, rfl⟩ := heq
    exact held_readOut_self hne
  · rw [held_readOut heq]
    exact hheld

/-- The voter reads the awaited pipe: one more replica is counted. -/
theorem Gathering.count (h : Gathering c A q G k s)
    (hA : ∀ p < c.outPipeCount, (A p).length ≤ maxPipeBuff) (hok : Unrepeated q k s)
    {todo : List (ℕ × ℕ)} (hstage : k.stage = .scan ((r, q) :: todo))
    (hne : s.outQueue r q ≠ []) : Gathering c A q G (k.count todo) (readOut s r q) := by
  have hread := h.read hA hstage
  have hnodup := h.nodup
  have hrange := h.range
  rw [hstage] at hrange hnodup
  obtain ⟨hr, -⟩ := hrange (r, q) List.mem_cons_self
  have hcount : k.done = false → k.repDone + 1 = answered c (readOut s r q) q := by
    intro hdone
    have hheld : s.held r q = [] := hok hdone (r, q) (by rw [hstage]; rfl) rfl
    rw [answered_readOut hr hheld hne, h.counted hdone]
  refine ⟨h.setTimer, h.expected, h.awaited, h.inTime, hread, (List.nodup_cons.mp hnodup).2,
    fun x hx => hrange x (List.mem_cons_of_mem _ hx), fun hdone => ?_, fun hdone => ?_,
    fun hdone => ?_, fun _ => ⟨todo, rfl⟩⟩
  · simp only [Collect.count, Bool.or_eq_false_iff] at hdone
    exact hcount hdone.1
  · simp only [Collect.count, Bool.or_eq_false_iff, decide_eq_false_iff_not] at hdone
    refine (answered_le c _ q).lt_of_ne fun heq => hdone.2 ?_
    rw [hcount hdone.1, heq, h.expected]
  · cases hk : k.done with
    | true => exact fun r' hr' => held_readOut_ne_nil hne (h.full hk r' hr')
    | false =>
      simp only [Collect.count, hk, Bool.false_or, decide_eq_true_eq] at hdone
      exact answered_eq_repCount ((hcount hk).symm.trans (hdone.trans h.expected))

/-- The voter reads another pipe. -/
theorem Gathering.pass (h : Gathering c A q G k s)
    (hA : ∀ p < c.outPipeCount, (A p).length ≤ maxPipeBuff) {todo : List (ℕ × ℕ)}
    (hstage : k.stage = .scan ((r, p) :: todo)) (hne : s.outQueue r p ≠ []) (hpq : p ≠ q) :
    Gathering c A q G { k with stage := .scan todo } (readOut s r p) := by
  have hread := h.read hA hstage
  have hnodup := h.nodup
  have hrange := h.range
  rw [hstage] at hrange hnodup
  have hsame : answered c (readOut s r p) q = answered c s q := by
    have hheld : ∀ r', (readOut s r p).held r' q = s.held r' q :=
      fun r' => held_readOut fun heq => hpq heq.2.symm
    simp only [answered, hheld]
  exact ⟨h.setTimer, h.expected, h.awaited, h.inTime, hread, (List.nodup_cons.mp hnodup).2,
    fun x hx => hrange x (List.mem_cons_of_mem _ hx),
    fun hdone => (h.counted hdone).trans hsame.symm,
    fun hdone => hsame.trans_lt (h.unfilled hdone),
    fun hdone r' hr' => held_readOut_ne_nil hne (h.full hdone r' hr'), fun _ => ⟨todo, rfl⟩⟩

/-- **One step of the loop.** -/
theorem Gathering.step (h : Gathering c A q G k s) (hq : q < c.outPipeCount)
    (hA : ∀ p < c.outPipeCount, (A p).length ≤ maxPipeBuff) (hok : Unrepeated q k s)
    (ht : (some k', t) ∈ collectFromReps c k s) : Gathering c A q G k' t ∧ Steady s t := by
  have hsound := h.sound
  rw [collectFromReps] at ht
  split at ht
  · rename_i hstage
    rw [hstage] at hsound
    split at ht
    · simp at ht
    · simp only [Option.mem_def, Option.some.injEq, Prod.mk.injEq] at ht
      obtain ⟨rfl, rfl⟩ := ht
      refine ⟨⟨h.setTimer, h.expected, h.awaited, h.inTime, hsound, List.nodup_nil,
        by simp [Stage.todo], h.counted, h.unfilled, h.full, fun hdone => ?_⟩, .refl s⟩
      obtain ⟨todo, hscan⟩ := h.scanning hdone
      rw [hstage] at hscan
      exact absurd hscan (by simp)
  · rename_i hstage
    simp only [Option.mem_def, Option.some.injEq, Prod.mk.injEq] at ht
    obtain ⟨rfl, rfl⟩ := ht
    rw [hstage] at hsound
    refine ⟨⟨h.setTimer, h.expected, h.awaited, h.inTime, fun r hr hgood => ?_,
      nodup_readyOuts c s, fun x hx => ?_, h.counted, h.unfilled, h.full, fun _ => ⟨_, rfl⟩⟩,
      .refl s⟩
    · refine ((hsound r hr hgood).congr fun p => by simp [Stage.todo]).snapshot hq fun p hp => ?_
      rw [Stage.todo, mem_readyOuts]
      exact ⟨fun hmem => hmem.2.2, fun hne => ⟨hr, hp, hne⟩⟩
    · obtain ⟨hr, hp, -⟩ := mem_readyOuts.mp hx
      exact ⟨hr, hp⟩
  · rename_i hstage
    rw [hstage] at hsound
    split at ht
    · simp at ht
    · rename_i hdone
      simp only [Option.mem_def, Option.some.injEq, Prod.mk.injEq] at ht
      obtain ⟨rfl, rfl⟩ := ht
      exact ⟨⟨h.setTimer, h.expected, h.awaited, h.inTime, hsound, List.nodup_nil,
        by simp [Stage.todo], h.counted, h.unfilled, h.full, fun htrue => absurd htrue hdone⟩,
        .refl s⟩
  · rename_i r p todo hstage
    split at ht
    · simp at ht
    · rename_i hne
      rw [h.awaited] at ht
      split at ht
      · rename_i hpq
        simp only [Option.mem_def, Option.some.injEq, Prod.mk.injEq] at ht
        obtain ⟨rfl, rfl⟩ := ht
        subst hpq
        exact ⟨h.count hA hok hstage hne, steady_readOut s r p⟩
      · rename_i hpq
        simp only [Option.mem_def, Option.some.injEq, Prod.mk.injEq] at ht
        obtain ⟨rfl, rfl⟩ := ht
        exact ⟨h.pass hA hstage hne hpq, steady_readOut s r p⟩

instance (q : ℕ) (k : Collect) (s : State) : Decidable (Unrepeated q k s) :=
  inferInstanceAs (Decidable (_ → ∀ x ∈ k.stage.todo.head?, _ → _))

/-- How the loop is left. -/
inductive Left (c : Config) (k : Collect) (s : State) : State → Prop
  | timeout (hstage : k.stage = .check) (hexpired : Expired c s) :
      Left c k s { s with timeoutOccurred := true }
  | full (hstage : k.stage = .scan []) (hdone : k.done = true) : Left c k s s

theorem left_of_collectFromReps (ht : (none, t) ∈ collectFromReps c k s) : Left c k s t := by
  rw [collectFromReps] at ht
  split at ht
  · rename_i hstage
    split at ht
    · rename_i hexpired
      simp only [Option.mem_def, Option.some.injEq, Prod.mk.injEq, true_and] at ht
      subst ht
      exact .timeout hstage hexpired.2
    · simp at ht
  · simp at ht
  · rename_i hstage
    split at ht
    · rename_i hdone
      simp only [Option.mem_def, Option.some.injEq, Prod.mk.injEq, true_and] at ht
      subst ht
      exact .full hstage hdone
    · simp at ht
  · split at ht
    · simp at ht
    · split at ht <;> simp at ht

/-- **Complete answers.** When the loop is left with the count full, the voter holds the
whole answer of every replica in `G`, and nothing of it is unread. -/
theorem Gathering.holds (h : Gathering c A q G k s) (hstage : k.stage = .scan [])
    (hdone : k.done = true) (hr : r < c.repCount) (hgood : r ∈ G) :
    Holds c A s r ∧ ∀ p < c.outPipeCount, s.outQueue r p = [] := by
  have hsound := h.sound r hr hgood
  rw [hstage] at hsound
  have hcomplete : ∀ p < c.outPipeCount, _ := fun p (hp : p ∈ c.outs) =>
    (hsound.congr fun p => by simp [Stage.todo]).complete (h.full hdone r hr) hp
  exact ⟨fun p hp => (hcomplete p hp).1, fun p hp => (hcomplete p hp).2⟩

/-! ### Without other replicas -/

/-- Nobody writes twice to the awaited pipe, so nobody is counted twice. -/
theorem Gathering.unrepeated (h : Gathering c A q Set.univ k s) : Unrepeated q k s := by
  intro _ x hx hxq
  have hmem : x ∈ k.stage.todo := List.mem_of_mem_head? hx
  obtain ⟨hr, hp⟩ := h.range x hmem
  have hsound := h.sound x.1 hr (Set.mem_univ _)
  rw [← hxq]
  exact (hsound.queue_eq hp (hsound.readable x.2 hp hmem)).1

/-- The number of pipes with something unread. -/
def unread (c : Config) (s : State) : ℕ :=
  #{x ∈ range c.repCount ×ˢ range c.outPipeCount | s.outQueue x.1 x.2 ≠ []}

/-- How far the loop is from the next read. -/
def rank : Stage → ℕ
  | .scan (_ :: _) => 0
  | .waiting => 1
  | .check => 2
  | .scan [] => 3

/-- Every replica has written to the awaited pipe. -/
def AllAnswered (c : Config) (s : State) (q : ℕ) : Prop :=
  ∀ r < c.repCount, s.held r q ≠ [] ∨ s.outQueue r q ≠ []

theorem unread_readOut (hr : r < c.repCount) (hp : p < c.outPipeCount)
    (hne : s.outQueue r p ≠ []) (hlength : (s.outQueue r p).length ≤ maxPipeBuff) :
    unread c (readOut s r p) < unread c s := by
  refine card_lt_card (Finset.ssubset_iff_of_subset ?_ |>.mpr ⟨(r, p), ?_, ?_⟩)
  · intro x hx
    obtain ⟨hmem, hx⟩ := mem_filter.mp hx
    refine mem_filter.mpr ⟨hmem, fun hnil => hx ?_⟩
    obtain ⟨r', p'⟩ := x
    rcases eq_or_ne r' r with rfl | hrr
    · rcases eq_or_ne p' p with rfl | hpp
      · exact absurd hnil hne
      · simpa [readOut, hpp] using hnil
    · simpa [readOut, hrr] using hnil
  · exact mem_filter.mpr ⟨mem_product.mpr ⟨mem_range.mpr hr, mem_range.mpr hp⟩, hne⟩
  · simp [readOut, List.drop_of_length_le hlength]

theorem AllAnswered.readOut (h : AllAnswered c s q) (hne : s.outQueue r p ≠ []) :
    AllAnswered c (VoterM.readOut s r p) q := by
  intro r' hr'
  rcases h r' hr' with hheld | hqueue
  · exact .inl (held_readOut_ne_nil hne hheld)
  · by_cases heq : r' = r ∧ q = p
    · obtain ⟨rfl, rfl⟩ := heq
      exact .inl (held_readOut_self hne)
    · refine .inr ?_
      rcases eq_or_ne r' r with rfl | hrr
      · have hqp : q ≠ p := fun hqp => heq ⟨rfl, hqp⟩
        simpa [VoterM.readOut, hqp] using hqueue
      · simpa [VoterM.readOut, hrr] using hqueue

/-- When all have answered, each step of the loop leaves it or brings it nearer to a read. -/
theorem Gathering.advance (h : Gathering c A q Set.univ k s) (hq : q < c.outPipeCount)
    (hA : ∀ p < c.outPipeCount, (A p).length ≤ maxPipeBuff) (hall : AllAnswered c s q)
    (htime : ¬ Expired c s) :
    (none, s) ∈ collectFromReps c k s ∨ ∃ k' t, (some k', t) ∈ collectFromReps c k s ∧
      4 * unread c t + rank k'.stage < 4 * unread c s + rank k.stage ∧
      AllAnswered c t q ∧ ¬ Expired c t := by
  have hrange := h.range
  have hsound := h.sound
  have hscanning := h.scanning
  have hunfilled := h.unfilled
  rcases k with ⟨setTimer, expected, repDone, done, stage⟩
  cases stage with
  | check =>
    refine .inr ⟨_, s, by rw [collectFromReps, if_neg fun hnow => htime hnow.2]; rfl, ?_, hall,
      htime⟩
    simp [rank]
  | waiting =>
    refine .inr ⟨_, s, rfl, ?_, hall, htime⟩
    -- somebody has written and was not read yet
    have hdone : done = false := by
      by_contra htrue
      obtain ⟨todo, hstage⟩ := hscanning (by simpa using htrue)
      exact absurd hstage (by simp)
    have hsome : readyOuts c s ≠ [] := by
      intro hnil
      have hheld : ∀ r ∈ Finset.range c.repCount, s.held r q ≠ [] := by
        intro r hr
        refine (hall r (mem_range.mp hr)).resolve_right fun hqueue => ?_
        have hmem : (r, q) ∈ readyOuts c s := mem_readyOuts.mpr ⟨mem_range.mp hr, hq, hqueue⟩
        simp [hnil] at hmem
      have hcard : answered c s q = c.repCount :=
        (card_filter_eq_iff.mpr hheld).trans (card_range _)
      exact (hunfilled hdone).ne hcard
    obtain ⟨x, todo, htodo⟩ := List.exists_cons_of_ne_nil hsome
    simp [rank, htodo]
  | scan todo =>
    rcases todo with _ | ⟨⟨r, p⟩, todo⟩
    · cases done with
      | true => exact .inl rfl
      | false => exact .inr ⟨_, s, rfl, by simp [rank], hall, htime⟩
    · obtain ⟨hr, hp⟩ := hrange (r, p) List.mem_cons_self
      have hreplica := hsound r hr (Set.mem_univ r)
      have hne : s.outQueue r p ≠ [] := hreplica.readable p hp List.mem_cons_self
      have hless : unread c (readOut s r p) < unread c s :=
        unread_readOut hr hp hne ((hreplica.length_queue_le hp).trans (hA p hp))
      have hrank : ∀ stage, rank stage ≤ 3 := by
        intro stage
        cases stage with
        | check => simp [rank]
        | waiting => simp [rank]
        | scan todo => cases todo <;> simp [rank]
      have hmeasure : 4 * unread c (readOut s r p) + rank (.scan todo) < 4 * unread c s + 0 := by
        have hstage := hrank (.scan todo)
        omega
      refine .inr ?_
      rw [collectFromReps]
      simp only [if_neg hne]
      split
      · exact ⟨_, _, rfl, hmeasure, hall.readOut hne, htime⟩
      · exact ⟨_, _, rfl, hmeasure, hall.readOut hne, htime⟩

/-! ### The others -/

/-- A write of a replica in `G` is the next part of its answer. -/
def Answers (c : Config) (A : ℕ → List UInt8) (q : ℕ) (G : Set ℕ) (s : State) : Act → Prop
  | .replicaWrites r p bytes => r ∈ G → Turn c.outs A q (s.channels r) p bytes
  | _ => True

instance (c : Config) (A : ℕ → List UInt8) (q : ℕ) (x : Channels ℕ UInt8) (p : ℕ)
    (bytes : List UInt8) : Decidable (Turn c.outs A q x p bytes) :=
  decidable_of_iff (x.wrote p = [] ∧ x.wrote q = [] ∧ bytes = A p ∧
      (p = q → ∀ p' < c.outPipeCount, p' ≠ q → x.wrote p' = A p'))
    ⟨fun h => ⟨h.1, h.2.1, h.2.2.1, h.2.2.2⟩, fun h => ⟨h.fresh, h.before, h.bytes, h.last⟩⟩

instance (c : Config) (A : ℕ → List UInt8) (q : ℕ) (G : Set ℕ) [DecidablePred (· ∈ G)]
    (s : State) : ∀ a, Decidable (Answers c A q G s a)
  | .replicaWrites r p bytes =>
    inferInstanceAs (Decidable (r ∈ G → Turn c.outs A q (s.channels r) p bytes))
  | .voter _ | .replicaReads _ _ _ | .externalWrites _ _ | .tick _ =>
    inferInstanceAs (Decidable True)

/-- The channels of an answer after an action of the others. -/
theorem OtherCase.sound {a : Act} {due : ℕ → Prop} (h : OtherCase c s a t)
    (hok : Answers c A q G s a) (hgood : r ∈ G) (hsound : Sound c.outs A q (s.channels r) due) :
    Sound c.outs A q (t.channels r) due := by
  cases h with
  | @write r' p bytes hr hp hne =>
    rcases eq_or_ne r r' with rfl | hrr
    · rw [channels_replicaWrite]
      exact hsound.write hp (hok hgood)
    · rw [channels_replicaWrite_ne hrr]
      exact hsound
  | quiet hchannels _ =>
    rw [hchannels]
    exact hsound

/-- The others act while the voter collects. -/
theorem Gathering.other {a : Act} (h : Gathering c A q G k s) (hok : Answers c A q G s a)
    (ht : OtherCase c s a t) : Gathering c A q G k t := by
  have hsteady := ht.steady
  refine ⟨h.setTimer, h.expected, hsteady.activePipeIndex ▸ h.awaited,
    hsteady.timeoutOccurred.trans h.inTime,
    fun r hr hgood => ht.sound hok hgood (h.sound r hr hgood), h.nodup, h.range, fun hdone => ?_,
    fun hdone => ?_, fun hdone r hr => ?_, h.scanning⟩
  · exact (h.counted hdone).trans (answered_congr ht.held).symm
  · exact (answered_congr ht.held).trans_lt (h.unfilled hdone)
  · rw [ht.held]
    exact h.full hdone r hr

/-! ### Before the loop -/

/-- Input has come in on a timed pipe, answered on `q`; the replicas may have begun to. -/
structure Ready (c : Config) (A : ℕ → List UInt8) (q : ℕ) (G : Set ℕ) (s : State) : Prop where
  waits : checkWaitOnInput c s = true
  awaited : c.timerStopIndex s.activePipeIndex = q
  sound : ∀ r < c.repCount, r ∈ G → Sound c.outs A q (s.channels r) fun _ => False
  held : ∀ r < c.repCount, ∀ p < c.outPipeCount, s.held r p = []

theorem Ready.other {a : Act} (h : Ready c A q G s) (hok : Answers c A q G s a)
    (ht : OtherCase c s a t) : Ready c A q G t := by
  have hactive := ht.steady.activePipeIndex
  refine ⟨(checkWaitOnInput_congr hactive).trans h.waits, hactive ▸ h.awaited,
    fun r hr hgood => ht.sound hok hgood (h.sound r hr hgood), fun r hr p hp => ?_⟩
  rw [ht.held]
  exact h.held r hr p hp

theorem sendToReps_eq (c : Config) (s : State) :
    ∃ inQueue, sendToReps c s = { s with inQueue := inQueue } := by
  refine Loop.loop_induction (fun _ t => ∃ inQueue, t = { s with inQueue := inQueue })
    ⟨s.inQueue, rfl⟩ ?_
  rintro r _ _ ⟨inQueue, rfl⟩
  exact ⟨_, rfl⟩

/-- The collection starts. -/
theorem Ready.gathering (h : Ready c A q G s) (hpos : 0 < c.repCount) (hq : q < c.outPipeCount) :
    Gathering c A q G (.start true c.repCount) (beginCollect (sendToReps c s)) := by
  obtain ⟨inQueue, heq⟩ := sendToReps_eq c s
  rw [heq]
  have hnone : answered c s q = 0 := by
    refine card_eq_zero.mpr (filter_eq_empty_iff.mpr fun r hr => not_not.mpr ?_)
    exact h.held r (mem_range.mp hr) q hq
  refine ⟨rfl, rfl, h.awaited, rfl, fun r hr hgood => ?_, List.nodup_nil, by simp [Collect.start,
    Stage.todo], fun _ => hnone.symm, fun _ => hnone.trans_lt hpos,
    fun hdone => Bool.noConfusion hdone, fun hdone => Bool.noConfusion hdone⟩
  exact (h.sound r hr hgood).congr fun p => by simp [Collect.start, Stage.todo]

end S3RES.VoterM
