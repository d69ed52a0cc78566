import S3RES.VoterD.Startup
import S3RES.VoterM.Pairing

/-!
# One command line, two voters

VoterD and VoterM get the same pipe arguments. VoterM pairs an input with the output of the
same timed index (`voterMPairs_eq`); VoterD keeps of the index only whether it is `0`, and
pairs by order of appearance. `voterDPairs_eq_iff`: the pairs are the same exactly if the
timed indices of the outputs begin with those of the inputs, in the same order, within the
first `PIPE_LIMIT` arguments.
-/

namespace S3RES

open VoterM (PipeArg inTimed outTimed)

variable {α : Type*} {args : List PipeArg} {l : List α} {P : α → Bool} {i j k : ℕ}

/-! ### Positions in a list -/

/-- The positions of the elements that satisfy `P`. -/
def positions (P : α → Bool) (l : List α) : List ℕ :=
  (List.range l.length).filter fun i => (l[i]?).any P

theorem positions_append (P : α → Bool) (l : List α) (x : α) :
    positions P (l ++ [x]) = positions P l ++ if P x then [l.length] else [] := by
  have hleft : (List.range l.length).filter (fun i => ((l ++ [x])[i]?).any P) = positions P l := by
    refine List.filter_congr fun i hi => ?_
    rw [List.getElem?_append_left (List.mem_range.mp hi)]
  rw [positions, List.length_append, List.length_singleton, List.range_succ, List.filter_append,
    hleft]
  cases hP : P x <;> simp [hP]

/-- What is at the positions are the elements, in order. -/
theorem map_positions (P : α → Bool) (l : List α) :
    (positions P l).map (l[·]?) = (l.filter P).map some := by
  induction l using List.reverseRecOn with
  | nil => rfl
  | append_singleton l x ih =>
    have hleft : (positions P l).map ((l ++ [x])[·]?) = (positions P l).map (l[·]?) := by
      refine List.map_congr_left fun i hi => ?_
      exact List.getElem?_append_left (List.mem_range.mp (List.mem_filter.mp hi).1)
    rw [positions_append, List.map_append, hleft, ih, List.filter_append, List.map_append]
    cases hP : P x <;> simp [hP]

theorem mem_positions : i ∈ positions P l ↔ ∃ x ∈ l[i]?, P x = true := by
  simp only [positions, List.mem_filter, List.mem_range, Option.any_eq_true, Option.mem_def]
  constructor
  · exact fun h => h.2
  · rintro ⟨x, hx, hP⟩
    exact ⟨(List.getElem?_eq_some_iff.mp hx).1, x, hx, hP⟩

/-- The `k`-th of the positions holds the `k`-th of the elements. -/
theorem getElem?_positions (h : (positions P l)[k]? = some i) : l[i]? = (l.filter P)[k]? := by
  have hmap := congrArg (·[k]?) (map_positions P l)
  simp only [List.getElem?_map, h, Option.map_some] at hmap
  cases hk : (l.filter P)[k]? with
  | none => simp [hk] at hmap
  | some x => simpa [hk] using hmap

theorem length_positions (P : α → Bool) (l : List α) :
    (positions P l).length = (l.filter P).length := by
  simpa using congrArg List.length (map_positions P l)

theorem nodup_positions (P : α → Bool) (l : List α) : (positions P l).Nodup :=
  List.nodup_range.filter _

/-! ### The pairs -/

/-- An argument of an input, and of a timed input. -/
def isInput (arg : PipeArg) : Bool := arg.fdIn ≠ 0

def isTimedInput (arg : PipeArg) : Bool := arg.timed ≠ 0 && arg.fdIn ≠ 0

/-- An argument of an output, and of a timed output. -/
def isOutput (arg : PipeArg) : Bool := arg.fdIn = 0

def isTimedOutput (arg : PipeArg) : Bool := arg.timed ≠ 0 && arg.fdIn = 0

/-- The arguments at these positions are a timed input and a timed output of one index. -/
def SameIndex (args : List PipeArg) (x : ℕ × ℕ) : Prop :=
  ∃ input ∈ args[x.1]?, ∃ output ∈ args[x.2]?, isTimedInput input = true ∧
    isTimedOutput output = true ∧ input.timed = output.timed

/-- Each timed index, `1` or `2`, is carried by at most one input and at most one output; and
what an input carries, an output carries too. -/
structure Consistent (args : List PipeArg) : Prop where
  inputs : ((args.filter isTimedInput).map (·.timed)).Nodup
  outputs : ((args.filter isTimedOutput).map (·.timed)).Nodup
  answered : ∀ k ∈ (args.filter isTimedInput).map (·.timed),
    k ∈ (args.filter isTimedOutput).map (·.timed)
  room : ∀ arg ∈ args, arg.timed ≤ 2

/-- The argument as VoterD stores it. -/
def toVoterD (arg : PipeArg) : VoterD.PipeArg :=
  ⟨arg.repInfo, arg.fdIn, arg.fdOut, decide (arg.timed ≠ 0)⟩

/-- The pairs of VoterD, as positions in the command line: an input and an output of one
entry, for the entries that are in use. -/
def voterDPairs (c : VoterD.Config) : Set (ℕ × ℕ) :=
  {x | ∃ n < c.timedIn.length, x = (c.timerStartIndex n, c.timerStopIndex n)}

/-- The pairs of VoterM, as positions in the command line: an input and an output of the entry
of one timed index. -/
def voterMPairs (args : List PipeArg) (c : VoterM.Config) : Set (ℕ × ℕ) :=
  {x | ∃ k ∈ inTimed args, k ≠ 0 ∧ (positions isInput args)[c.timerStartIndex (k - 1)]? = some x.1 ∧
    (positions isOutput args)[c.timerStopIndex (k - 1)]? = some x.2}

/-- The timed indices of the inputs come in the same order as those of the outputs, within
the arguments that VoterD reads. -/
def InOrder (args : List PipeArg) : Prop :=
  (args.filter isTimedInput).map (·.timed) <+:
    ((args.take VoterD.pipeLimit).filter isTimedOutput).map (·.timed) ∧
  (args.drop VoterD.pipeLimit).filter isTimedInput = []

instance (args : List PipeArg) : Decidable (InOrder args) :=
  inferInstanceAs (Decidable (_ ∧ _))

theorem filter_inTimed (args : List PipeArg) :
    (inTimed args).filter (· ≠ 0) = (args.filter isTimedInput).map (·.timed) := by
  rw [inTimed, List.filter_map, List.filter_filter]
  rfl

theorem filter_outTimed (args : List PipeArg) :
    (outTimed args).filter (· ≠ 0) = (args.filter isTimedOutput).map (·.timed) := by
  rw [outTimed, List.filter_map, List.filter_filter]
  rfl

/-! ### VoterM -/

/-- The entry of an index names the position of the argument that carries it. -/
theorem exists_position {P : PipeArg → Bool}
    (h : (((args.filter P).map (·.timed)).filter (· ≠ 0)).Nodup) {arg : PipeArg}
    (hi : args[i]? = some arg) (hP : P arg = true) (htimed : arg.timed ≠ 0) :
    (positions P args)[VoterM.fill ((args.filter P).map (·.timed)) (arg.timed - 1)]? = some i := by
  obtain ⟨a, ha⟩ := List.mem_iff_getElem?.mp (mem_positions.mpr ⟨arg, hi, hP⟩)
  have hget : ((args.filter P).map (·.timed))[a]? = some (arg.timed - 1 + 1) := by
    rw [List.getElem?_map, ← getElem?_positions ha, hi, Nat.sub_add_cancel (by omega)]
    rfl
  rw [VoterM.fill_of_nodup h hget]
  exact ha

/-- **VoterM** pairs what carries the same index. -/
theorem voterMPairs_eq (h : Consistent args) {c : VoterM.Config}
    (hc : c.toPipes = VoterM.parsePipes args) : voterMPairs args c = {x | SameIndex args x} := by
  have hinputs : ((inTimed args).filter (· ≠ 0)).Nodup := by
    rw [filter_inTimed]
    exact h.inputs
  have houtputs : ((outTimed args).filter (· ≠ 0)).Nodup := by
    rw [filter_outTimed]
    exact h.outputs
  have hstart : ∀ {i input}, args[i]? = some input → isTimedInput input = true →
      (positions isInput args)[c.timerStartIndex (input.timed - 1)]? = some i := by
    intro i input hi htimed
    simp only [isTimedInput, Bool.and_eq_true, decide_eq_true_eq] at htimed
    rw [hc, VoterM.timerStartIndex_eq_fill]
    exact exists_position hinputs hi (by simpa [isInput] using htimed.2) htimed.1
  have hstop : ∀ {j output}, args[j]? = some output → isTimedOutput output = true →
      (positions isOutput args)[c.timerStopIndex (output.timed - 1)]? = some j := by
    intro j output hj htimed
    simp only [isTimedOutput, Bool.and_eq_true, decide_eq_true_eq] at htimed
    rw [hc, VoterM.timerStopIndex_eq_fill]
    exact exists_position houtputs hj (by simpa [isOutput] using htimed.2) htimed.1
  ext ⟨i, j⟩
  constructor
  · rintro ⟨k, hk, hne, hi, hj⟩
    -- the arguments that carry `k`
    have hin : k ∈ (args.filter isTimedInput).map (·.timed) := by
      rw [← filter_inTimed]
      exact List.mem_filter.mpr ⟨hk, by simpa using hne⟩
    obtain ⟨input, hinput, rfl⟩ := List.mem_map.mp hin
    obtain ⟨output, houtput, hsame⟩ := List.mem_map.mp (h.answered _ hin)
    obtain ⟨hmem, htimed⟩ := List.mem_filter.mp hinput
    obtain ⟨hmem', htimed'⟩ := List.mem_filter.mp houtput
    obtain ⟨i', hi'⟩ := List.mem_iff_getElem?.mp hmem
    obtain ⟨j', hj'⟩ := List.mem_iff_getElem?.mp hmem'
    obtain rfl : i' = i := Option.some.inj ((hstart hi' htimed).symm.trans hi)
    obtain rfl : j' = j := by
      have hstop' := hstop hj' htimed'
      rw [hsame] at hstop'
      exact Option.some.inj (hstop'.symm.trans hj)
    exact ⟨input, hi', output, hj', htimed, htimed', hsame.symm⟩
  · rintro ⟨input, hi, output, hj, htimed, htimed', hsame⟩
    have hin : input.timed ∈ (inTimed args).filter (· ≠ 0) := by
      rw [filter_inTimed]
      exact List.mem_map.mpr ⟨input, List.mem_filter.mpr ⟨List.mem_of_getElem? hi, htimed⟩, rfl⟩
    obtain ⟨hmem, hne⟩ := List.mem_filter.mp hin
    refine ⟨input.timed, hmem, by simpa using hne, hstart hi htimed, ?_⟩
    rw [hsame]
    exact hstop hj htimed'

/-! ### VoterD -/

variable {type : String} {timeout priority : ℤ} {memory : ℕ → VotePipe} {c : VoterD.Config}

/-- The timed pipes that `parseArgs` of VoterD lists. -/
theorem timedPipes_parseArgs
    (hc : c = VoterD.parseArgs type timeout priority (args.map toVoterD) memory) :
    c.timedIn = positions isTimedInput (args.take VoterD.pipeLimit) ∧
      c.timedOut = positions isTimedOutput (args.take VoterD.pipeLimit) := by
  have hcount : c.pipeCount = (args.take VoterD.pipeLimit).length := by
    rw [hc, List.length_take, Nat.min_comm]
    simp [VoterD.parseArgs]
  have hext : ∀ i < c.pipeCount, ∃ arg, (args.take VoterD.pipeLimit)[i]? = some arg ∧
      (c.extPipes i).timed = decide (arg.timed ≠ 0) ∧ (c.extPipes i).fdIn = arg.fdIn := by
    intro i hi
    rw [hcount] at hi
    have hlt : i < args.length := by
      rw [List.length_take] at hi
      omega
    refine ⟨(args.take VoterD.pipeLimit)[i], List.getElem?_eq_getElem hi, ?_⟩
    rw [List.getElem_take]
    simp [hc, VoterD.parseArgs, hlt, VoterD.parsePipe, toVoterD]
  constructor
  · rw [VoterD.Config.timedIn, VoterD.timedPipes, positions, hcount]
    refine List.filter_congr fun i hi => ?_
    obtain ⟨arg, harg, htimed, hfd⟩ := hext i (hcount ▸ List.mem_range.mp hi)
    rw [harg, htimed, hfd]
    cases h : decide (arg.fdIn ≠ 0) <;> simp [isTimedInput, h]
  · rw [VoterD.Config.timedOut, VoterD.timedPipes, positions, hcount]
    refine List.filter_congr fun i hi => ?_
    obtain ⟨arg, harg, htimed, hfd⟩ := hext i (hcount ▸ List.mem_range.mp hi)
    rw [harg, htimed, hfd]
    by_cases h : arg.fdIn = 0 <;> simp [isTimedOutput, h]

/-- A timed index has one position among the inputs, and one among the outputs. -/
theorem eq_of_timed_eq {P : PipeArg → Bool} (h : ((args.filter P).map (·.timed)).Nodup)
    {x y : PipeArg} (hi : args[i]? = some x) (hj : args[j]? = some y) (hx : P x = true)
    (hy : P y = true) (hsame : x.timed = y.timed) : i = j := by
  obtain ⟨a, ha⟩ := List.mem_iff_getElem?.mp (mem_positions.mpr ⟨x, hi, hx⟩)
  obtain ⟨b, hb⟩ := List.mem_iff_getElem?.mp (mem_positions.mpr ⟨y, hj, hy⟩)
  have ha' : ((args.filter P).map (·.timed))[a]? = some x.timed := by
    rw [List.getElem?_map, ← getElem?_positions ha, hi]
    rfl
  have hb' : ((args.filter P).map (·.timed))[b]? = some x.timed := by
    rw [List.getElem?_map, ← getElem?_positions hb, hj, hsame]
    rfl
  obtain ⟨hlt, -⟩ := List.getElem?_eq_some_iff.mp ha'
  obtain rfl := (List.getElem?_inj hlt h).mp (ha'.trans hb'.symm)
  exact Option.some.inj (ha.symm.trans hb)

/-- An entry of a timer array that is in use. -/
theorem timerArray_of_getElem? {pipes : List ℕ} (h : pipes[k]? = some j) :
    VoterD.timerArray pipes k = j := by
  rw [VoterD.timerArray, h, Option.getD_some]

/-- The pairs of VoterD: its `n`-th timed input, with its `n`-th timed output if there is
one. -/
theorem mem_voterDPairs
    (hc : c = VoterD.parseArgs type timeout priority (args.map toVoterD) memory) {x : ℕ × ℕ} :
    x ∈ voterDPairs c ↔ ∃ n i, (positions isTimedInput (args.take VoterD.pipeLimit))[n]? = some i ∧
      x = (i, VoterD.timerArray (positions isTimedOutput (args.take VoterD.pipeLimit)) n) := by
  obtain ⟨hin, hout⟩ := timedPipes_parseArgs hc
  have hstart : c.timerStartIndex = VoterD.timerArray c.timedIn := by
    rw [hc]
    exact congrArg VoterD.TimerArrays.timerStartIndex (VoterD.indexTimers_eq _ _)
  have hstop : c.timerStopIndex = VoterD.timerArray c.timedOut := by
    rw [hc]
    exact congrArg VoterD.TimerArrays.timerStopIndex (VoterD.indexTimers_eq _ _)
  rw [voterDPairs, Set.mem_ofPred_eq, hstart, hstop, hin, hout]
  constructor
  · rintro ⟨n, hn, rfl⟩
    have hi := List.getElem?_eq_getElem hn
    exact ⟨n, _, hi, by rw [timerArray_of_getElem? hi]⟩
  · rintro ⟨n, i, hi, rfl⟩
    exact ⟨n, (List.getElem?_eq_some_iff.mp hi).1, by rw [timerArray_of_getElem? hi]⟩

theorem getElem?_of_take {n : ℕ} {arg : PipeArg} (h : (args.take n)[i]? = some arg) :
    args[i]? = some arg ∧ i < n := by
  rw [List.getElem?_take] at h
  split at h
  · exact ⟨h, ‹_›⟩
  · cases h

/-- Each timed input has its pair. -/
theorem Consistent.exists_pair (h : Consistent args) {input : PipeArg} (hi : args[i]? = some input)
    (htimed : isTimedInput input = true) : ∃ j, SameIndex args (i, j) := by
  have hanswer := h.answered input.timed
    (List.mem_map.mpr ⟨input, List.mem_filter.mpr ⟨List.mem_of_getElem? hi, htimed⟩, rfl⟩)
  obtain ⟨output, houtput, hsame⟩ := List.mem_map.mp hanswer
  obtain ⟨hmem, htimed'⟩ := List.mem_filter.mp houtput
  obtain ⟨j, hj⟩ := List.mem_iff_getElem?.mp hmem
  exact ⟨j, input, hi, output, hj, htimed, htimed', hsame.symm⟩

/-- If VoterD has all pairs, then it reads all timed inputs. -/
theorem filter_drop_eq_nil (h : Consistent args)
    (hc : c = VoterD.parseArgs type timeout priority (args.map toVoterD) memory)
    (heq : voterDPairs c = {x | SameIndex args x}) :
    (args.drop VoterD.pipeLimit).filter isTimedInput = [] := by
  refine List.eq_nil_iff_forall_not_mem.mpr fun input hinput => ?_
  obtain ⟨hmem, htimed⟩ := List.mem_filter.mp hinput
  obtain ⟨k, hk⟩ := List.mem_iff_getElem?.mp hmem
  rw [List.getElem?_drop] at hk
  obtain ⟨j, hpair⟩ := h.exists_pair hk htimed
  have hmem' : (VoterD.pipeLimit + k, j) ∈ voterDPairs c := heq ▸ hpair
  obtain ⟨n, i, hi, hx⟩ := (mem_voterDPairs hc).mp hmem'
  obtain ⟨rfl, -⟩ := Prod.mk.inj hx
  obtain ⟨arg, harg, -⟩ := mem_positions.mp (List.mem_of_getElem? hi)
  have hlt := (getElem?_of_take harg).2
  omega

/-- If VoterD pairs only what carries the same index, then its `n`-th timed output carries
the index of its `n`-th timed input. -/
theorem timed_getElem?_eq (h : Consistent args)
    (hc : c = VoterD.parseArgs type timeout priority (args.map toVoterD) memory)
    (hsub : voterDPairs c ⊆ {x | SameIndex args x}) {n : ℕ} {input : PipeArg}
    (hinput : ((args.take VoterD.pipeLimit).filter isTimedInput)[n]? = some input) :
    (((args.take VoterD.pipeLimit).filter isTimedOutput).map (·.timed))[n]? =
      some input.timed := by
  have hlt := (List.getElem?_eq_some_iff.mp hinput).1
  rw [← length_positions] at hlt
  -- the pair of entry `n`, and of an entry `b` that names the same output
  have hentry : ∀ b i, (positions isTimedInput (args.take VoterD.pipeLimit))[b]? = some i →
      SameIndex args (i, VoterD.timerArray
        (positions isTimedOutput (args.take VoterD.pipeLimit)) b) :=
    fun b i hi => hsub ((mem_voterDPairs hc).mpr ⟨b, i, hi, rfl⟩)
  obtain ⟨i, hi⟩ : ∃ i, (positions isTimedInput (args.take VoterD.pipeLimit))[n]? = some i :=
    ⟨_, List.getElem?_eq_getElem hlt⟩
  obtain ⟨input', hin, output, hout, htimed, htimed', hsame⟩ := hentry n i hi
  obtain rfl : input' = input := by
    have hthere := (getElem?_positions hi).trans hinput
    exact Option.some.inj (hin.symm.trans (getElem?_of_take hthere).1)
  cases hj : (positions isTimedOutput (args.take VoterD.pipeLimit))[n]? with
  | some j =>
    rw [timerArray_of_getElem? hj] at hout
    obtain ⟨arg, harg, -⟩ := mem_positions.mp (List.mem_of_getElem? hj)
    have hthere := getElem?_positions hj
    rw [harg, Option.some.inj ((getElem?_of_take harg).1.symm.trans hout)] at hthere
    rw [List.getElem?_map, ← hthere, hsame]
    rfl
  | none =>
    -- the entry is the unused one, `0`: that output is also the one of its own entry
    rw [VoterD.timerArray, hj, Option.getD_none] at hout
    have hzero : (args.take VoterD.pipeLimit)[0]? = some output := by
      rw [List.getElem?_take, if_pos (by decide)]
      exact hout
    obtain ⟨b, hb⟩ := List.mem_iff_getElem?.mp (mem_positions.mpr ⟨output, hzero, htimed'⟩)
    have hbn : b < n :=
      (List.getElem?_eq_some_iff.mp hb).1.trans_le (List.getElem?_eq_none_iff.mp hj)
    obtain ⟨i', hi'⟩ : ∃ i', (positions isTimedInput (args.take VoterD.pipeLimit))[b]? = some i' :=
      ⟨_, List.getElem?_eq_getElem (hbn.trans hlt)⟩
    obtain ⟨input'', hin', output', hout', htimed'', -, hsame'⟩ := hentry b i' hi'
    rw [timerArray_of_getElem? hb] at hout'
    obtain rfl := Option.some.inj (hout.symm.trans hout')
    have hii := eq_of_timed_eq h.inputs hin hin' htimed htimed'' (hsame.trans hsame'.symm)
    subst hii
    have := (List.getElem?_inj hlt (nodup_positions _ _)).mp (hi.trans hi'.symm)
    omega

/-- **VoterD** pairs what carries the same index, if and only if the timed indices come in one
order. -/
theorem voterDPairs_eq (h : Consistent args)
    (hc : c = VoterD.parseArgs type timeout priority (args.map toVoterD) memory) :
    voterDPairs c = {x | SameIndex args x} ↔ InOrder args := by
  have hsplit : args.filter isTimedInput = (args.take VoterD.pipeLimit).filter isTimedInput ++
      (args.drop VoterD.pipeLimit).filter isTimedInput := by
    rw [← List.filter_append, List.take_append_drop]
  constructor
  · intro heq
    have hdrop := filter_drop_eq_nil h hc heq
    refine ⟨?_, hdrop⟩
    rw [hsplit, hdrop, List.append_nil]
    refine List.prefix_iff_getElem?.mpr fun n hn => ?_
    rw [List.getElem_map]
    exact timed_getElem?_eq h hc heq.subset (List.getElem?_eq_getElem _)
  · rintro ⟨horder, hdrop⟩
    rw [hsplit, hdrop, List.append_nil] at horder
    -- the entry of a timed input names the output of its index
    have hentry : ∀ n i, (positions isTimedInput (args.take VoterD.pipeLimit))[n]? = some i →
        SameIndex args (i, VoterD.timerArray
          (positions isTimedOutput (args.take VoterD.pipeLimit)) n) := by
      intro n i hi
      obtain ⟨input, hinput, htimed⟩ := mem_positions.mp (List.mem_of_getElem? hi)
      have hnth := (getElem?_positions hi).symm.trans hinput
      have hsame : (((args.take VoterD.pipeLimit).filter isTimedOutput).map (·.timed))[n]? =
          some input.timed := by
        obtain ⟨rest, hrest⟩ := horder
        have hlt := (List.getElem?_eq_some_iff.mp hnth).1
        rw [← hrest, List.getElem?_append_left (by rwa [List.length_map]), List.getElem?_map, hnth]
        rfl
      rw [List.getElem?_map, Option.map_eq_some_iff] at hsame
      obtain ⟨output, houtput, hsame⟩ := hsame
      obtain ⟨j, hj⟩ :
          ∃ j, (positions isTimedOutput (args.take VoterD.pipeLimit))[n]? = some j := by
        refine ⟨_, List.getElem?_eq_getElem ?_⟩
        rw [length_positions]
        exact (List.getElem?_eq_some_iff.mp houtput).1
      have hthere := (getElem?_positions hj).trans houtput
      rw [timerArray_of_getElem? hj]
      exact ⟨input, (getElem?_of_take hinput).1, output, (getElem?_of_take hthere).1, htimed,
        (List.mem_filter.mp (List.mem_of_getElem? houtput)).2, hsame.symm⟩
    ext ⟨i, j⟩
    constructor
    · intro hx
      obtain ⟨n, i', hi', hx⟩ := (mem_voterDPairs hc).mp hx
      rw [hx]
      exact hentry n i' hi'
    · rintro ⟨input, hi, output, hj, htimed, htimed', hsame⟩
      have hlt : i < VoterD.pipeLimit := by
        by_contra hge
        have hmem : input ∈ (args.drop VoterD.pipeLimit).filter isTimedInput := by
          refine List.mem_filter.mpr ⟨List.mem_of_getElem? (i := i - VoterD.pipeLimit) ?_, htimed⟩
          rw [List.getElem?_drop, Nat.add_sub_cancel' (not_lt.mp hge)]
          exact hi
        rw [hdrop] at hmem
        cases hmem
      have htake : (args.take VoterD.pipeLimit)[i]? = some input := by
        rw [List.getElem?_take, if_pos hlt]
        exact hi
      obtain ⟨n, hn⟩ := List.mem_iff_getElem?.mp (mem_positions.mpr ⟨input, htake, htimed⟩)
      refine (mem_voterDPairs hc).mpr ⟨n, i, hn, ?_⟩
      obtain ⟨input', hi', output', hj', -, htimed'', hsame'⟩ := hentry n i hn
      obtain rfl := Option.some.inj (hi.symm.trans hi')
      exact Prod.ext rfl (eq_of_timed_eq h.outputs hj hj' htimed' htimed''
        (hsame.symm.trans hsame'))

/-! ### Both -/

/-- **One command line.** VoterM pairs what carries the same timed index. VoterD has the same
pairs if and only if the timed indices of the inputs are those of the first outputs, in the
same order. -/
theorem voterDPairs_eq_iff (args : List PipeArg) (type : String) (timeout priority : ℤ)
    (memory : ℕ → VotePipe) (h : Consistent args) :
    voterMPairs args (VoterM.parseArgs type timeout priority args) = {x | SameIndex args x} ∧
      (voterDPairs (VoterD.parseArgs type timeout priority (args.map toVoterD) memory) =
        voterMPairs args (VoterM.parseArgs type timeout priority args) ↔ InOrder args) := by
  have hM := voterMPairs_eq h (c := VoterM.parseArgs type timeout priority args) rfl
  refine ⟨hM, ?_⟩
  rw [hM]
  exact voterDPairs_eq h rfl

/-- The pipes of the planner, in the order of the shipped configuration. -/
def plannerArgs : List PipeArg :=
  [⟨"MAP_UPDATE", 3, 0, 1⟩, ⟨"COMM_ACK", 0, 4, 1⟩, ⟨"WAY_REQ", 5, 0, 2⟩, ⟨"WAY_RES", 0, 6, 2⟩]

theorem consistent_plannerArgs : Consistent plannerArgs :=
  ⟨by decide, by decide, by decide, by decide⟩

theorem voterDPairs_eq_iff_planner :
    voterDPairs (VoterD.parseArgs "TMR" 400000 10 (plannerArgs.map toVoterD)
        fun _ => VoterD.zeroPipe) =
      voterMPairs plannerArgs (VoterM.parseArgs "TMR" 400000 10 plannerArgs) :=
  (voterDPairs_eq_iff plannerArgs "TMR" 400000 10 (fun _ => VoterD.zeroPipe)
    consistent_plannerArgs).2.mpr (by decide)

/-- The same pipes, with the two lines for the outputs exchanged. -/
def exchangedArgs : List PipeArg :=
  [⟨"MAP_UPDATE", 3, 0, 1⟩, ⟨"WAY_REQ", 5, 0, 2⟩, ⟨"WAY_RES", 0, 6, 2⟩, ⟨"COMM_ACK", 0, 4, 1⟩]

/-- VoterD then pairs the map updates with the way points. -/
theorem voterDPairs_ne_exchanged :
    Consistent exchangedArgs ∧
      (0, 2) ∈ voterDPairs (VoterD.parseArgs "TMR" 400000 10 (exchangedArgs.map toVoterD)
        fun _ => VoterD.zeroPipe) ∧
      (0, 2) ∉ voterMPairs exchangedArgs (VoterM.parseArgs "TMR" 400000 10 exchangedArgs) := by
  have hconsistent : Consistent exchangedArgs := ⟨by decide, by decide, by decide, by decide⟩
  refine ⟨hconsistent, (mem_voterDPairs rfl).mpr ⟨0, 0, by decide, by decide⟩, ?_⟩
  rw [voterMPairs_eq hconsistent rfl]
  rintro ⟨input, hinput, output, houtput, -, -, hsame⟩
  obtain rfl := Option.some.inj hinput
  obtain rfl := Option.some.inj houtput
  exact absurd hsame (by decide)

end S3RES
