import S3RES.VoterM.Machine
import S3RES.VoterM.Pairing

/-!
# Which output is waited for

`checkWaitOnInput` goes through the first entries of `timer_start_index`, and `collectFromReps`
takes the entry of `timer_stop_index` at the position of the active input, where the arrays are
filled by timed index. `waitsRight_iff` says for which arguments this comes to the same: the
timed inputs have to be where their indices are looked for (`InPlace`).
-/

namespace S3RES.VoterM

variable {args : List PipeArg} {c : Config} {s : State} {ts : List ℕ} {a j k p q : ℕ}

/-! ### What the timer arrays hold -/

/-- The entry of an index that is not carried keeps its default. -/
theorem fill_of_not_mem (h : j + 1 ∉ ts) : fill ts j = 0 := by
  induction ts using List.reverseRecOn with
  | nil => rfl
  | append_singleton ts k ih =>
    rw [List.mem_append, List.mem_singleton, not_or] at h
    rw [fill_append]
    split
    · rw [Function.update_of_ne (by omega)]
      exact ih h.1
    · exact ih h.1

/-- Each of the indices 1 and 2 is carried at most once. -/
def AtMostOnce (ts : List ℕ) : Prop := ∀ k ∈ [1, 2], ts.count k ≤ 1

instance (ts : List ℕ) : Decidable (AtMostOnce ts) := inferInstanceAs (Decidable (∀ k ∈ [1, 2], _))

/-- The indices that are carried, where the arrays have room for them. -/
def carried (ts : List ℕ) : List ℕ := ts.filter (· ≠ 0)

theorem mem_carried : k ∈ carried ts ↔ k ∈ ts ∧ k ≠ 0 := by simp [carried]

section Room

variable (honce : AtMostOnce ts) (hroom : ∀ k ∈ ts, k ≤ 2)
include hroom

theorem eq_one_or_two (h : k ∈ carried ts) : k = 1 ∨ k = 2 := by
  obtain ⟨hk, hne⟩ := mem_carried.mp h
  have hle := hroom k hk
  omega

include honce

theorem nodup_carried : (carried ts).Nodup := by
  rw [List.nodup_iff_count_le_one]
  intro k
  by_cases hk : k ∈ carried ts
  · have hne := (mem_carried.mp hk).2
    have hmem : k ∈ [1, 2] := by
      rcases eq_one_or_two hroom hk with rfl | rfl <;> decide
    rw [carried, List.count_filter (by simpa using hne)]
    exact honce k hmem
  · rw [List.count_eq_zero_of_not_mem hk]
    exact Nat.zero_le 1

theorem length_carried_le : (carried ts).length ≤ 2 := by
  have hsub : carried ts ⊆ [1, 2] := fun k hk => by
    rcases eq_one_or_two hroom hk with rfl | rfl <;> decide
  exact ((nodup_carried honce hroom).subperm hsub).length_le

/-- Both indices are carried exactly if two are. -/
theorem two_le_length_carried_iff : 2 ≤ (carried ts).length ↔ 1 ∈ ts ∧ 2 ∈ ts := by
  constructor
  · intro h
    have hall : ∀ k ∈ [1, 2], k ∈ carried ts := by
      intro k hk
      by_contra hnot
      -- all that is carried is the other index
      have hsub : carried ts ⊆ [3 - k] := fun j hj => by
        have hne : j ≠ k := fun heq => hnot (heq ▸ hj)
        have hk' : k = 1 ∨ k = 2 := by simpa using hk
        have hj' := eq_one_or_two hroom hj
        rw [List.mem_singleton]
        omega
      have hle := ((nodup_carried honce hroom).subperm hsub).length_le
      simp only [List.length_singleton] at hle
      omega
    exact ⟨(mem_carried.mp (hall 1 (by decide))).1, (mem_carried.mp (hall 2 (by decide))).1⟩
  · rintro ⟨h1, h2⟩
    have hsub : [1, 2] ⊆ carried ts := by
      intro k hk
      have hk' : k = 1 ∨ k = 2 := by simpa using hk
      rcases hk' with rfl | rfl
      · exact mem_carried.mpr ⟨h1, by decide⟩
      · exact mem_carried.mpr ⟨h2, by decide⟩
    exact ((by decide : [1, 2].Nodup).subperm hsub).length_le

end Room

/-! ### The property and its condition -/

/-- The indices at which `parseArgs` writes the timer arrays. -/
def parseIndices (args : List PipeArg) : List ℕ :=
  (args.filter fun arg => arg.timed ≠ 0).map fun arg => arg.timed - 1

/-- The indices at which `checkWaitOnInput` reads `timer_start_index`. -/
def checkIndices (c : Config) : List ℕ := List.range c.indexedPipes

/-- The next step of `collectFromReps` reads out pipe `p`, and so `timer_stop_index` at the
active input. -/
def ReadsNext (c : Config) (k : Collect) (s : State) (p : ℕ) : Prop :=
  ∃ r todo, k.stage = .scan ((r, p) :: todo) ∧ r < c.repCount ∧ p < c.outPipeCount ∧
    s.outQueue r p ≠ []

/-- The right outputs are waited for, and the timer arrays accessed within their two entries. -/
structure WaitsRight (args : List PipeArg) (c : Config) : Prop where
  /-- A response is expected to the timed inputs. -/
  expects : ∀ s : State, s.activePipeIndex < c.inPipeCount →
    (checkWaitOnInput c s = true ↔ timedIndex args s.activePipeIndex ≠ 0)
  /-- A replica counts as done only for the output with the index of the input. -/
  counts : ∀ s : State, s.activePipeIndex < c.inPipeCount → checkWaitOnInput c s = true →
    ∀ k k' t p, ReadsNext c k s p → collectFromReps c k s = some (some k', t) →
      k'.repDone ≠ k.repDone → Paired args s.activePipeIndex p
  parseBound : ∀ i ∈ parseIndices args, i < 2
  checkBound : ∀ i ∈ checkIndices c, i < 2
  collectBound : ∀ s : State, s.activePipeIndex < c.inPipeCount → checkWaitOnInput c s = true →
    ∀ k p, ReadsNext c k s p → s.activePipeIndex < 2

/-- There is no index but 1 and 2, and none but the first input carries 2 where none carries 1.
Where there is an output, a timed input is the first or the second, and its index is that of the
output that carries the number of its position, or of the first output if there is none. -/
structure InPlace (args : List PipeArg) : Prop where
  room : ∀ arg ∈ args, arg.timed ≤ 2
  alone : 2 ∈ inTimed args → 1 ∉ inTimed args → timedIndex args 0 = 2
  place : ∀ a, timedIndex args a ≠ 0 → outTimed args ≠ [] → a < 2 ∧
    (a + 1 ∈ outTimed args ∧ timedIndex args a = a + 1 ∨
      a + 1 ∉ outTimed args ∧ (outTimed args).head? = some (timedIndex args a))

/-! ### When a response is expected -/

theorem getElem?_inTimed_iff (hk : k ≠ 0) :
    (inTimed args)[a]? = some k ↔ timedIndex args a = k := by
  rw [timedIndex, List.getD_eq_getElem?_getD]
  cases (inTimed args)[a]? with
  | none => simpa using hk.symm
  | some => simp

theorem checkWaitOnInput_iff_fill (hc : c.toPipes = parsePipes args) :
    checkWaitOnInput c s = true ↔
      ∃ j < (carried (inTimed args)).length, s.activePipeIndex = fill (inTimed args) j := by
  have hcount : (parsePipes args).indexedPipes = (carried (inTimed args)).length :=
    (parsePipes_eq args).2.2.1
  simp only [checkWaitOnInput, List.any_eq_true, List.mem_range, decide_eq_true_eq, hc, hcount,
    timerStartIndex_eq_fill]

theorem mem_of_mem_timed (hk : k ∈ inTimed args ∨ k ∈ outTimed args) :
    ∃ arg ∈ args, arg.timed = k := by
  rcases hk with hk | hk
  · obtain ⟨arg, harg, rfl⟩ := List.mem_map.mp hk
    exact ⟨arg, (List.mem_filter.mp harg).1, rfl⟩
  · obtain ⟨arg, harg, rfl⟩ := List.mem_map.mp hk
    exact ⟨arg, (List.mem_filter.mp harg).1, rfl⟩

section Arguments

variable (hc : c.toPipes = parsePipes args) (hin : AtMostOnce (inTimed args))
  (hroom : ∀ arg ∈ args, arg.timed ≤ 2)
include hroom

omit hroom in
theorem inPipeCount_eq (hc : c.toPipes = parsePipes args) :
    c.inPipeCount = (inTimed args).length := by
  rw [hc]
  exact (parsePipes_eq args).1

omit hroom in
theorem outPipeCount_eq (hc : c.toPipes = parsePipes args) :
    c.outPipeCount = (outTimed args).length := by
  rw [hc]
  exact (parsePipes_eq args).2.1

theorem inTimed_le : ∀ k ∈ inTimed args, k ≤ 2 := by
  intro k hk
  obtain ⟨arg, harg, rfl⟩ := mem_of_mem_timed (.inl hk)
  exact hroom arg harg

theorem outTimed_le : ∀ k ∈ outTimed args, k ≤ 2 := by
  intro k hk
  obtain ⟨arg, harg, rfl⟩ := mem_of_mem_timed (.inr hk)
  exact hroom arg harg

include hc hin

/-- The inputs are recognised exactly if index 2 does not stand alone away from the first. -/
theorem expects_iff : (∀ s : State, s.activePipeIndex < c.inPipeCount →
    (checkWaitOnInput c s = true ↔ timedIndex args s.activePipeIndex ≠ 0)) ↔
    (2 ∈ inTimed args → 1 ∉ inTimed args → timedIndex args 0 = 2) := by
  have hle := inTimed_le hroom
  have hnodup := nodup_carried hin hle
  have htwo := two_le_length_carried_iff hin hle
  have hvalue : ∀ a, timedIndex args a ≠ 0 → timedIndex args a = 1 ∨ timedIndex args a = 2 := by
    intro a ha
    have hmem := List.mem_of_getElem? ((getElem?_inTimed_iff (a := a) ha).mpr rfl)
    exact eq_one_or_two hle (mem_carried.mpr ⟨hmem, ha⟩)
  constructor
  · intro h h2 h1
    -- entry 0 has kept its default, and there is an index
    have hpos : 0 < (carried (inTimed args)).length :=
      List.length_pos_of_mem (mem_carried.mpr ⟨h2, by decide⟩)
    have hcheck : checkWaitOnInput c boot = true :=
      (checkWaitOnInput_iff_fill hc).mpr ⟨0, hpos, (fill_of_not_mem h1).symm⟩
    have hbound : boot.activePipeIndex < c.inPipeCount := by
      rw [inPipeCount_eq hc]
      exact List.length_pos_of_mem h2
    have htimed := (h boot hbound).mp hcheck
    rcases hvalue _ htimed with hone | htwo'
    · exact absurd (List.mem_of_getElem? ((getElem?_inTimed_iff (by decide)).mpr hone)) h1
    · exact htwo'
  · intro halone s hbound
    rw [checkWaitOnInput_iff_fill hc]
    constructor
    · rintro ⟨j, hj, hactive⟩
      have hj2 : j < 2 := hj.trans_le (length_carried_le hin hle)
      by_cases hmem : j + 1 ∈ inTimed args
      · obtain ⟨a, ha⟩ := List.mem_iff_getElem?.mp hmem
        rw [hactive, fill_of_nodup hnodup ha, (getElem?_inTimed_iff j.succ_ne_zero).mp ha]
        exact j.succ_ne_zero
      · -- only entry 0 is read where its index is not carried
        have hzero : j = 0 := by
          by_contra hne
          have hj1 : j = 1 := by omega
          subst hj1
          exact hmem (htwo.mp (by omega)).2
        subst hzero
        obtain ⟨k, hk⟩ := List.exists_mem_of_length_pos (by omega : 0 < (carried _).length)
        have hmemk := (mem_carried.mp hk).1
        obtain rfl : k = 2 := (eq_one_or_two hle hk).resolve_left fun h1 => by
          subst h1
          exact hmem hmemk
        rw [hactive, fill_of_not_mem hmem, halone hmemk hmem]
        decide
    · intro htimed
      have hget := (getElem?_inTimed_iff (a := s.activePipeIndex) htimed).mpr rfl
      have hmem := List.mem_of_getElem? hget
      have hpos : 0 < (carried (inTimed args)).length :=
        List.length_pos_of_mem (mem_carried.mpr ⟨hmem, htimed⟩)
      rcases hvalue _ htimed with hone | htwo'
      · rw [hone] at hget
        exact ⟨0, hpos, (fill_of_nodup hnodup hget).symm⟩
      · rw [htwo'] at hget hmem
        by_cases h1 : 1 ∈ inTimed args
        · exact ⟨1, htwo.mpr ⟨h1, hmem⟩, (fill_of_nodup hnodup hget).symm⟩
        · have hfirst := (getElem?_inTimed_iff (by decide)).mpr (halone hmem h1)
          refine ⟨0, hpos, ?_⟩
          rw [fill_of_not_mem h1]
          exact eq_of_getElem?_eq hnodup (by decide) hget hfirst

end Arguments

/-! ### Which output is counted -/

/-- A step that reads an out pipe counts it if it is the entry of the active input. -/
theorem awaited_of_counts {k k' : Collect} {t : State} (hreads : ReadsNext c k s p)
    (hstep : collectFromReps c k s = some (some k', t)) (hcount : k'.repDone ≠ k.repDone) :
    p = c.timerStopIndex s.activePipeIndex := by
  obtain ⟨r, todo, hstage, -, -, hne⟩ := hreads
  simp only [collectFromReps, hstage, if_neg hne] at hstep
  split at hstep
  · assumption
  · simp only [Option.some.injEq, Prod.mk.injEq] at hstep
    rw [← hstep.1] at hcount
    exact absurd rfl hcount

theorem collectFromReps_awaited {k : Collect} {r : ℕ} {todo : List (ℕ × ℕ)}
    (hstage : k.stage = .scan ((r, c.timerStopIndex s.activePipeIndex) :: todo))
    (hne : s.outQueue r (c.timerStopIndex s.activePipeIndex) ≠ []) :
    collectFromReps c k s =
      some (some (k.count todo), readOut s r (c.timerStopIndex s.activePipeIndex)) := by
  simp only [collectFromReps, hstage, if_neg hne, if_true]

/-- The entry of input `a` is the output that carries the number of its position, or the first. -/
theorem timerStopIndex_cases (hc : c.toPipes = parsePipes args)
    (hnodup : ((outTimed args).filter (· ≠ 0)).Nodup) (a : ℕ) :
    (a + 1 ∈ outTimed args ∧ (outTimed args)[c.timerStopIndex a]? = some (a + 1)) ∨
      (a + 1 ∉ outTimed args ∧ c.timerStopIndex a = 0) := by
  rw [hc, timerStopIndex_eq_fill]
  by_cases hmem : a + 1 ∈ outTimed args
  · obtain ⟨q, hq⟩ := List.mem_iff_getElem?.mp hmem
    refine .inl ⟨hmem, ?_⟩
    rw [fill_of_nodup hnodup hq, hq]
  · exact .inr ⟨hmem, fill_of_not_mem hmem⟩

/-- **Awaited outputs.** For arguments in which no two inputs and no two outputs carry the same
index, VoterM waits for the right outputs, and stays within the timer arrays, if and only if
the indices are in place. -/
theorem waitsRight_iff {type : String} {timeout priority : ℤ}
    (hc : c = parseArgs type timeout priority args) (hpos : 0 < c.repCount)
    (hin : AtMostOnce (inTimed args)) (hout : AtMostOnce (outTimed args)) :
    WaitsRight args c ↔ InPlace args := by
  have hpipes : c.toPipes = parsePipes args := by rw [hc]; rfl
  constructor
  · intro h
    have hroom : ∀ arg ∈ args, arg.timed ≤ 2 := by
      intro arg harg
      by_cases htimed : arg.timed = 0
      · omega
      · have hlt := h.parseBound (arg.timed - 1)
          (List.mem_map.mpr ⟨arg, List.mem_filter.mpr ⟨harg, by simpa using htimed⟩, rfl⟩)
        omega
    have hnodup := nodup_carried hout (outTimed_le hroom)
    refine ⟨hroom, (expects_iff hpipes hin hroom).mp h.expects, fun a ha hne => ?_⟩
    -- input `a` has come in, and the pipe that is counted has something to read
    have hget := (getElem?_inTimed_iff (a := a) ha).mpr rfl
    have hbound : a < c.inPipeCount := by
      rw [inPipeCount_eq hpipes]
      exact (List.getElem?_eq_some_iff.mp hget).1
    have hcheck : checkWaitOnInput c { boot with activePipeIndex := a } = true :=
      (h.expects { boot with activePipeIndex := a } hbound).mpr ha
    have hlt : c.timerStopIndex a < c.outPipeCount := by
      rw [outPipeCount_eq hpipes]
      rcases timerStopIndex_cases hpipes hnodup a with ⟨-, hq⟩ | ⟨-, hzero⟩
      · exact (List.getElem?_eq_some_iff.mp hq).1
      · rw [hzero]
        exact List.length_pos_iff.mpr hne
    let s : State := { boot with activePipeIndex := a, outQueue := fun _ _ => [0] }
    let k : Collect := { Collect.start true 1 with stage := .scan [(0, c.timerStopIndex a)] }
    have hreads : ReadsNext c k s (c.timerStopIndex a) :=
      ⟨0, [], rfl, hpos, hlt, List.cons_ne_nil _ _⟩
    have hpair := h.counts s hbound hcheck k _ _ _ hreads
      (collectFromReps_awaited rfl (List.cons_ne_nil _ _)) (Nat.succ_ne_self _)
    refine ⟨h.collectBound s hbound hcheck k _ hreads, ?_⟩
    rcases timerStopIndex_cases hpipes hnodup a with ⟨hmem, hq⟩ | ⟨hmem, hzero⟩
    · rw [hpair.2] at hq
      exact .inl ⟨hmem, Option.some.inj hq⟩
    · refine .inr ⟨hmem, ?_⟩
      rw [List.head?_eq_getElem?, ← hzero]
      exact hpair.2
  · intro h
    have hnodup := nodup_carried hout (outTimed_le h.room)
    have hexpects := (expects_iff hpipes hin h.room).mpr h.alone
    have houts : ∀ {k s p}, ReadsNext c k s p → outTimed args ≠ [] := by
      rintro k s p ⟨-, -, -, -, hp, -⟩ hnil
      rw [outPipeCount_eq hpipes, hnil] at hp
      exact p.not_lt_zero hp
    refine ⟨hexpects, fun s hbound hcheck k k' t p hreads hstep hcount => ?_, fun i hi => ?_,
      fun i hi => ?_, fun s hbound hcheck k p hreads => ?_⟩
    · have htimed := (hexpects s hbound).mp hcheck
      obtain ⟨-, hplace⟩ := h.place _ htimed (houts hreads)
      refine ⟨htimed, ?_⟩
      rw [awaited_of_counts hreads hstep hcount]
      rcases timerStopIndex_cases hpipes hnodup s.activePipeIndex with ⟨hmem, hq⟩ | ⟨hmem, hzero⟩
      · have heq := (hplace.resolve_right fun hnot => hnot.1 hmem).2
        rw [hq, heq]
      · have hhead := (hplace.resolve_left fun hhas => hmem hhas.1).2
        rw [hzero, ← List.head?_eq_getElem?, hhead]
    · obtain ⟨arg, harg, rfl⟩ := List.mem_map.mp hi
      have hle := h.room arg (List.mem_filter.mp harg).1
      omega
    · have hle := length_carried_le hin (inTimed_le h.room)
      have hcount : c.indexedPipes = (carried (inTimed args)).length := by
        rw [hpipes]
        exact (parsePipes_eq args).2.2.1
      rw [checkIndices, List.mem_range, hcount] at hi
      omega
    · exact (h.place _ ((hexpects s hbound).mp hcheck) (houts hreads)).1

/-- The planner's arguments, as `all_tmr.cfg` lists them. -/
def aStarArgs : List PipeArg :=
  [⟨"MAP_UPDATE", 3, 0, 1⟩, ⟨"COMM_ACK", 0, 4, 1⟩, ⟨"WAY_REQ", 5, 0, 2⟩, ⟨"WAY_RES", 0, 6, 2⟩]

theorem waitsRight_aStar : WaitsRight aStarArgs (parseArgs "TMR" 400000 10 aStarArgs) := by
  refine (waitsRight_iff rfl (by decide +kernel) (by decide +kernel) (by decide +kernel)).mpr
    ⟨by decide +kernel, by decide +kernel, fun a ha _ => ?_⟩
  have hlt : a < 2 := by
    by_contra hge
    exact ha (List.getD_eq_default _ _ (not_lt.mp hge))
  exact ⟨hlt, .inl ((by decide +kernel : ∀ a < 2,
    a + 1 ∈ outTimed aStarArgs ∧ timedIndex aStarArgs a = a + 1) a hlt)⟩

/-- The planner's arguments with its two inputs the other way round. -/
def requestFirstArgs : List PipeArg :=
  [⟨"WAY_REQ", 5, 0, 2⟩, ⟨"MAP_UPDATE", 3, 0, 1⟩, ⟨"COMM_ACK", 0, 4, 1⟩, ⟨"WAY_RES", 0, 6, 2⟩]

/-- A request for a waypoint is answered when the acknowledgement of a map has been read. -/
theorem not_waitsRight_requestFirst : AtMostOnce (inTimed requestFirstArgs) ∧
    AtMostOnce (outTimed requestFirstArgs) ∧
    ¬ WaitsRight requestFirstArgs (parseArgs "TMR" 400000 10 requestFirstArgs) := by
  refine ⟨by decide +kernel, by decide +kernel, fun h => ?_⟩
  have hpair := h.counts { boot with outQueue := fun _ _ => [0] } (by decide +kernel)
    (by decide +kernel) { Collect.start true 1 with stage := .scan [(0, 0)] } _ _ 0
    ⟨0, [], rfl, by decide +kernel, by decide +kernel, List.cons_ne_nil _ _⟩
    (collectFromReps_awaited rfl (List.cons_ne_nil _ _)) (Nat.succ_ne_self _)
  exact absurd hpair.2 (by decide +kernel)

end S3RES.VoterM
