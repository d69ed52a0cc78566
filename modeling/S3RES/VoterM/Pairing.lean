import S3RES.VoterM.Model

/-!
# Timed pairs in VoterM

`parsePipes` stores the position of the input that carries timed index `k` under `k - 1`, and
so with the outputs (`timerStartIndex_eq_fill`, `timerStopIndex_eq_fill`). An input and an
output that carry the same index are a pair (`Paired`). The program looks the pair up by the
position of the input, where it stored it by the index: `timerStopIndex_of_paired` needs the
input to be at the position its index names.
-/

namespace S3RES.VoterM

variable {args : List PipeArg} {ts : List ℕ} {a j k q : ℕ}

/-- The timed indices of the inputs. -/
def inTimed (args : List PipeArg) : List ℕ := (args.filter fun arg => arg.fdIn ≠ 0).map (·.timed)

/-- The timed indices of the outputs. -/
def outTimed (args : List PipeArg) : List ℕ := (args.filter fun arg => arg.fdIn = 0).map (·.timed)

/-- The timed index of input `a`, `0` if it is not timed. -/
def timedIndex (args : List PipeArg) (a : ℕ) : ℕ := (inTimed args).getD a 0

/-- Input `a` and output `q` carry the same timed index. -/
def Paired (args : List PipeArg) (a q : ℕ) : Prop :=
  timedIndex args a ≠ 0 ∧ (outTimed args)[q]? = some (timedIndex args a)

instance (args : List PipeArg) (a q : ℕ) : Decidable (Paired args a q) :=
  inferInstanceAs (Decidable (_ ∧ _))

/-! ### The timer arrays -/

/-- The array that is filled position by position: entry `k - 1` is set to the position of
every `k` that is met, so that the last one stays. -/
def fill (ts : List ℕ) : ℕ → ℕ :=
  (ts.foldl (fun (t : (ℕ → ℕ) × ℕ) k =>
    (if k ≠ 0 then Function.update t.1 (k - 1) t.2 else t.1, t.2 + 1)) (fun _ => 0, 0)).1

theorem fill_append (ts : List ℕ) (k : ℕ) :
    fill (ts ++ [k]) = if k ≠ 0 then Function.update (fill ts) (k - 1) ts.length else fill ts := by
  have hlength : ∀ (ts : List ℕ) (t : (ℕ → ℕ) × ℕ), (ts.foldl (fun (t : (ℕ → ℕ) × ℕ) k =>
      (if k ≠ 0 then Function.update t.1 (k - 1) t.2 else t.1, t.2 + 1)) t).2 =
        t.2 + ts.length := by
    intro ts
    induction ts with
    | nil => exact fun t => rfl
    | cons k ts ih =>
      intro t
      rw [List.foldl_cons, ih, List.length_cons]
      omega
  rw [fill, List.foldl_append, List.foldl_cons, List.foldl_nil, hlength, Nat.zero_add]
  rfl

/-- The entry of an index is its last position. -/
theorem fill_eq (ha : ts[a]? = some (j + 1)) (hlast : ∀ b, ts[b]? = some (j + 1) → b ≤ a) :
    fill ts j = a := by
  induction ts using List.reverseRecOn with
  | nil => simp at ha
  | append_singleton ts k ih =>
    rw [fill_append]
    rcases eq_or_ne k (j + 1) with rfl | hk
    · have hle := hlast ts.length (by simp)
      obtain ⟨hlt, -⟩ := List.getElem?_eq_some_iff.mp ha
      rw [List.length_append, List.length_singleton] at hlt
      rw [if_pos (by omega), Nat.add_sub_cancel, Function.update_self]
      omega
    · have ha' : ts[a]? = some (j + 1) := by
        rcases Nat.lt_or_ge a ts.length with hlt | hge
        · rwa [List.getElem?_append_left hlt] at ha
        · rw [List.getElem?_append_right hge, List.getElem?_singleton] at ha
          split at ha
          · exact absurd (Option.some.inj ha) hk
          · simp at ha
      have hlast' : ∀ b, ts[b]? = some (j + 1) → b ≤ a := by
        intro b hb
        obtain ⟨hlt, -⟩ := List.getElem?_eq_some_iff.mp hb
        exact hlast b (by rwa [List.getElem?_append_left hlt])
      split
      · rename_i hne
        rw [Function.update_of_ne (by omega)]
        exact ih ha' hlast'
      · exact ih ha' hlast'

/-- What `parsePipes` has stored after the arguments. -/
theorem parsePipes_eq (args : List PipeArg) :
    (parsePipes args).inPipeCount = (inTimed args).length ∧
      (parsePipes args).outPipeCount = (outTimed args).length ∧
      (parsePipes args).indexedPipes = ((inTimed args).filter (· ≠ 0)).length ∧
      (parsePipes args).timerStartIndex = fill (inTimed args) ∧
      (parsePipes args).timerStopIndex = fill (outTimed args) := by
  induction args using List.reverseRecOn with
  | nil => exact ⟨rfl, rfl, rfl, rfl, rfl⟩
  | append_singleton args arg ih =>
    obtain ⟨hin, hout, hindexed, hstart, hstop⟩ := ih
    have hparse : parsePipes (args ++ [arg]) = parsePipe (parsePipes args) arg := by
      simp [parsePipes, List.foldl_append]
    rw [hparse, parsePipe]
    by_cases hfd : arg.fdIn ≠ 0
    · have hin' : inTimed (args ++ [arg]) = inTimed args ++ [arg.timed] := by simp [inTimed, hfd]
      have hout' : outTimed (args ++ [arg]) = outTimed args := by simp [outTimed, hfd]
      rw [if_pos hfd, hin', hout', fill_append]
      refine ⟨by simp [hin], hout, ?_, ?_, hstop⟩
      · by_cases htimed : arg.timed = 0
        · simp [htimed, hindexed]
        · simp [htimed, hindexed]
      · simp only [hstart, hin]
    · have hin' : inTimed (args ++ [arg]) = inTimed args := by simpa [inTimed] using hfd
      have hout' : outTimed (args ++ [arg]) = outTimed args ++ [arg.timed] := by
        simp [outTimed, not_not.mp hfd]
      rw [if_neg hfd, hin', hout', fill_append]
      exact ⟨hin, by simp [hout], hindexed, hstart, by simp only [hstop, hout]⟩

theorem timerStartIndex_eq_fill (args : List PipeArg) :
    (parsePipes args).timerStartIndex = fill (inTimed args) := (parsePipes_eq args).2.2.2.1

theorem timerStopIndex_eq_fill (args : List PipeArg) :
    (parsePipes args).timerStopIndex = fill (outTimed args) := (parsePipes_eq args).2.2.2.2

/-! ### Well numbered pairs -/

/-- The timed inputs carry the indices `1, …, n`, each once; no two outputs carry the same
index; and the timer arrays, of two entries, have room for all of them. -/
structure WellNumbered (args : List PipeArg) : Prop where
  inputs : ((inTimed args).filter (· ≠ 0)).Perm
    (List.range' 1 ((inTimed args).filter (· ≠ 0)).length)
  outputs : ((outTimed args).filter (· ≠ 0)).Nodup
  room : ∀ k ∈ inTimed args ++ outTimed args, k ≤ 2

instance (args : List PipeArg) : Decidable (WellNumbered args) :=
  decidable_of_iff (((inTimed args).filter (· ≠ 0)).Perm
      (List.range' 1 ((inTimed args).filter (· ≠ 0)).length) ∧
    ((outTimed args).filter (· ≠ 0)).Nodup ∧ ∀ k ∈ inTimed args ++ outTimed args, k ≤ 2)
    ⟨fun h => ⟨h.1, h.2.1, h.2.2⟩, fun h => ⟨h.inputs, h.outputs, h.room⟩⟩

/-- In a list whose non-zero entries are distinct, one of them has a single position. -/
theorem eq_of_getElem?_eq {b : ℕ} (h : (ts.filter (· ≠ 0)).Nodup) (hk : k ≠ 0)
    (ha : ts[a]? = some k) (hb : ts[b]? = some k) : a = b := by
  induction ts generalizing a b with
  | nil => simp at ha
  | cons k' ts ih =>
    have htail : (ts.filter (· ≠ 0)).Nodup := by
      by_cases hk' : k' = 0
      · simpa [hk'] using h
      · rw [List.filter_cons_of_pos (by simpa using hk')] at h
        exact (List.nodup_cons.mp h).2
    have hhead : ∀ b : ℕ, ts[b]? = some k → k' ≠ k := by
      rintro b hb rfl
      rw [List.filter_cons_of_pos (by simpa using hk)] at h
      refine (List.nodup_cons.mp h).1 (List.mem_filter.mpr ⟨List.mem_of_getElem? hb, ?_⟩)
      simpa using hk
    rcases a with _ | a <;> rcases b with _ | b
    · rfl
    · exact absurd (Option.some.inj ha) (hhead b hb)
    · exact absurd (Option.some.inj hb) (hhead a ha)
    · exact congrArg (· + 1) (ih htail ha hb)

/-- An index that the inputs carry is at its entry. -/
theorem fill_of_nodup (h : (ts.filter (· ≠ 0)).Nodup) (ha : ts[a]? = some (j + 1)) :
    fill ts j = a :=
  fill_eq ha fun _ hb => (eq_of_getElem?_eq h j.succ_ne_zero hb ha).le

theorem WellNumbered.nodup (h : WellNumbered args) : ((inTimed args).filter (· ≠ 0)).Nodup :=
  h.inputs.nodup_iff.mpr List.nodup_range'

/-- The indices of the timed inputs. -/
theorem WellNumbered.mem_inTimed (h : WellNumbered args) (hk : k ≠ 0) :
    k ∈ inTimed args ↔ k ≤ ((inTimed args).filter (· ≠ 0)).length := by
  have hmem := h.inputs.mem_iff (a := k)
  simp only [List.mem_filter, decide_eq_true_eq, List.mem_range'_1] at hmem
  constructor
  · intro hin
    have := hmem.mp ⟨hin, hk⟩
    omega
  · intro hle
    exact (hmem.mpr (by omega)).1

/-- `parseArgs` waits for the timed inputs at their places, and for no untimed input. -/
theorem checkWaitOnInput_iff {c : Config} {s : State} (hc : c.toPipes = parsePipes args)
    (h : WellNumbered args)
    (hplace : timedIndex args s.activePipeIndex ≠ 0 →
      timedIndex args s.activePipeIndex = s.activePipeIndex + 1) :
    checkWaitOnInput c s = true ↔ timedIndex args s.activePipeIndex ≠ 0 := by
  have hget : ∀ a k, k ≠ 0 → ((inTimed args)[a]? = some k ↔ timedIndex args a = k) := by
    intro a k hk
    rw [timedIndex, List.getD_eq_getElem?_getD]
    cases (inTimed args)[a]? with
    | none => simpa using hk.symm
    | some => simp
  have hstart : ∀ j < ((inTimed args).filter (· ≠ 0)).length,
      timedIndex args (c.timerStartIndex j) = j + 1 := by
    intro j hj
    have hmem := (h.mem_inTimed j.succ_ne_zero).mpr (by omega)
    obtain ⟨a, ha⟩ := List.mem_iff_getElem?.mp hmem
    rw [hc, timerStartIndex_eq_fill, fill_of_nodup h.nodup ha]
    exact (hget a _ j.succ_ne_zero).mp ha
  have hcount : c.indexedPipes = ((inTimed args).filter (· ≠ 0)).length := by
    rw [hc]
    exact (parsePipes_eq args).2.2.1
  simp only [checkWaitOnInput, List.any_eq_true, List.mem_range, decide_eq_true_eq, hcount]
  constructor
  · rintro ⟨j, hj, hactive⟩
    rw [hactive, hstart j hj]
    exact j.succ_ne_zero
  · intro htimed
    have hat := hplace htimed
    have hmem : (inTimed args)[s.activePipeIndex]? = some (s.activePipeIndex + 1) :=
      (hget _ _ (Nat.succ_ne_zero _)).mpr hat
    have hle := (h.mem_inTimed (Nat.succ_ne_zero _)).mp (List.mem_of_getElem? hmem)
    refine ⟨s.activePipeIndex, by omega, ?_⟩
    rw [hc, timerStartIndex_eq_fill, fill_of_nodup h.nodup hmem]

/-- The awaited out pipe is the one of the pair, for an input at its place. -/
theorem timerStopIndex_of_paired (h : WellNumbered args) (hpair : Paired args a q)
    (hplace : timedIndex args a = a + 1) : (parsePipes args).timerStopIndex a = q := by
  have hq := hpair.2
  rw [hplace] at hq
  rw [timerStopIndex_eq_fill, fill_of_nodup h.outputs hq]

theorem lt_outPipeCount_of_paired (hpair : Paired args a q) :
    q < (parsePipes args).outPipeCount := by
  rw [(parsePipes_eq args).2.1]
  exact (List.getElem?_eq_some_iff.mp hpair.2).1

end S3RES.VoterM
