import S3RES.CommTypes.SerialPipe
import S3RES.TimerPairs

/-!
# The strings of the pipe arguments

The plumber starts a voter with one argument `name:in:out:timed` for each pipe. VoterD looks for
the first colon and leaves the numbers to `sscanf`; VoterM has scanners of its own and reads every
argument twice, the first time to count the inputs and outputs. A string is the list of its bytes
without the zero at the end. A reader is `none` where it runs past the end of a string or an
array, or would use a variable that was not set.

`pipes_recovered`: both voters read back the pipes that were printed. `launchArg_eq_format`: the
plumber prints in this format what `serializePipe` serializes right. `agrees_parsePipes` and
`extPipes_parseArgs`: what the voters have read is what their models make of arguments that are
already split.
-/

namespace S3RES

open Memory

/-! ### The format -/

/-- A pipe in the command line of a voter: a name without a colon, one end, and the index of its
timer. -/
structure PipeSpec where
  name : List UInt8
  fdIn : ℕ
  fdOut : ℕ
  timed : ℕ
  name_colon : colon ∉ name
  name_short : name.length < 100
  oneEnd : fdIn ≠ 0 ∧ fdOut = 0 ∨ fdIn = 0 ∧ fdOut ≠ 0
  fd_lt : fdIn < 10 ^ 9 ∧ fdOut < 10 ^ 9
  timed_le : timed ≤ 2

/-- `%s:%d:%d:%d`. -/
def PipeSpec.format (p : PipeSpec) : List UInt8 :=
  p.name ++ colon :: (decimal p.fdIn ++ colon :: (decimal p.fdOut ++ colon :: decimal p.timed))

/-- The loop over the first 100 bytes: the index of the first colon. -/
def firstColon (serial : List UInt8) : Option ℕ :=
  (List.range 100).find? fun i => serial[i]? = some colon

/-! ### VoterD -/

/-- `%d` of `sscanf`, and what is left. There has to be a digit. -/
def scanInt (l : List UInt8) : Option (ℤ × List UInt8) :=
  let l := l.dropWhile isSpace
  let digits := if l.head? = some 45 ∨ l.head? = some 43 then l.tail else l
  if digits.takeWhile isDigit = [] then none else some (atoi l, digits.dropWhile isDigit)

/-- `:%d`. -/
def scanField : List UInt8 → Option (ℤ × List UInt8)
  | [] => none
  | b :: l => if b = colon then scanInt l else none

/-- `sscanf(.., ":%d:%d:%d", ..)`, if all three are assigned. -/
def scanFields (l : List UInt8) : Option (ℤ × ℤ × ℤ) := do
  let (fdIn, l) ← scanField l
  let (fdOut, l) ← scanField l
  let (timed, _) ← scanField l
  some (fdIn, fdOut, timed)

namespace VoterD

/-- What `parsePipe` sets of a `struct vote_pipe`. -/
structure ExtPipe where
  repInfo : List UInt8
  fdIn : ℤ
  fdOut : ℤ
  timed : Bool
  deriving DecidableEq

/-- `parsePipe`, from the string. -/
def parsePipeString (serial : List UInt8) : Option ExtPipe := do
  let strLength ← firstColon serial
  let (fdIn, fdOut, timed) ← scanFields (serial.drop strLength)
  some ⟨serial.take strLength, fdIn, fdOut, timed ≠ 0⟩

/-- The loops of `parseArgs` over the pipes: `pipe_count` and `ext_pipes`. -/
def parsePipeStrings (args : List (List UInt8)) : Option (ℕ × List ExtPipe) := do
  let extPipes ← (args.take pipeLimit).mapM parsePipeString
  some (min args.length pipeLimit, extPipes)

end VoterD

/-! ### VoterM -/

namespace VoterM

/-- The loop that copies the bytes up to the next colon to `pipe_fd_string`, which has room for
nine of them and the zero. -/
def pipeFdString (l : List UInt8) : Option (List UInt8) := do
  let (digits, _) ← scanColon l
  if digits.length < 10 then some digits else none

/-- What the first pass over the arguments finds out. -/
structure Lengths where
  strLengths : List ℕ
  inPipeCount : ℕ
  outPipeCount : ℕ

/-- A round of the first pass. -/
def Lengths.measure (t : Lengths) (serial : List UInt8) : Option Lengths := do
  let j ← firstColon serial
  let pipeFd ← pipeFdString (serial.drop (j + 1))
  if 0 ≠ atoi pipeFd then
    some { t with strLengths := t.strLengths ++ [j], inPipeCount := t.inPipeCount + 1 }
  else some { t with strLengths := t.strLengths ++ [j], outPipeCount := t.outPipeCount + 1 }

/-- What the second pass takes from an argument. -/
structure Scanned where
  repInfo : List UInt8
  fdIn : ℤ
  fdOut : ℤ
  timed : ℤ

/-- The scanners of the second pass; `j` goes past the name and the numbers. -/
def scanArg (serial : List UInt8) (strLength : ℕ) : Option Scanned := do
  let repInfo := serial.take strLength
  -- past the first colon
  let j := strLength + 1
  let pipeFd ← pipeFdString (serial.drop j)
  let fdIn := atoi pipeFd
  -- past the second
  let j := j + pipeFd.length + 1
  let pipeFd ← pipeFdString (serial.drop j)
  let fdOut := atoi pipeFd
  -- past the third
  let j := j + pipeFd.length + 1
  some ⟨repInfo, fdIn, fdOut, atoi (serial.drop j)⟩

/-- The arrays and counters that `parseArgs` fills. -/
structure Table where
  inPipeCount : ℕ
  outPipeCount : ℕ
  extInFds : Mem ℕ
  repInfoIn : Mem (List UInt8)
  extOutFds : Mem ℕ
  repInfoOut : Mem (List UInt8)
  indexedPipes : ℕ
  timerStartIndex : ℤ → ℕ
  timerStopIndex : ℤ → ℕ
  cInPipe : ℕ
  cOutPipe : ℕ

/-- The end of a round of the second pass. A descriptor is stored as an `unsigned int`. -/
def Table.enter (t : Table) (arg : Scanned) : Table :=
  if 0 ≠ arg.fdIn then
    { t with
      extInFds := Function.update t.extInFds t.cInPipe (arg.fdIn % 2 ^ 32).toNat
      repInfoIn := Function.update t.repInfoIn t.cInPipe arg.repInfo
      indexedPipes := if arg.timed ≠ 0 then t.indexedPipes + 1 else t.indexedPipes
      timerStartIndex :=
        if arg.timed ≠ 0 then Function.update t.timerStartIndex (arg.timed - 1) t.cInPipe
        else t.timerStartIndex
      cInPipe := t.cInPipe + 1 }
  else
    { t with
      extOutFds := Function.update t.extOutFds t.cOutPipe (arg.fdOut % 2 ^ 32).toNat
      repInfoOut := Function.update t.repInfoOut t.cOutPipe arg.repInfo
      timerStopIndex :=
        if arg.timed ≠ 0 then Function.update t.timerStopIndex (arg.timed - 1) t.cOutPipe
        else t.timerStopIndex
      cOutPipe := t.cOutPipe + 1 }

/-- The arrays as `malloc` returned them, and the counts of the first pass. -/
def Table.empty (memory : Table) (t : Lengths) : Table :=
  { memory with
    inPipeCount := t.inPipeCount
    outPipeCount := t.outPipeCount
    indexedPipes := 0
    timerStartIndex := fun _ => 0
    timerStopIndex := fun _ => 0
    cInPipe := 0
    cOutPipe := 0 }

/-- The two passes of `parseArgs` over the pipe arguments. -/
def parsePipeStrings (memory : Table) (args : List (List UInt8)) : Option Table := do
  let lengths ← args.foldlM Lengths.measure ⟨[], 0, 0⟩
  (args.zip lengths.strLengths).foldlM
    (fun t x => (scanArg x.1 x.2).map t.enter) (Table.empty memory lengths)

end VoterM

/-! ### Numbers -/

variable {n : ℕ} {b : UInt8} {r : List UInt8}

theorem digit_of_mem_decimal (h : b ∈ decimal n) :
    isDigit b = true ∧ isSpace b = false ∧ b ≠ 45 ∧ b ≠ 43 ∧ b ≠ colon := by
  rw [decimal] at h
  split at h
  · obtain rfl := List.mem_singleton.mp h
    decide
  · exact digit_of_mem_numeral h

theorem colon_notMem_decimal (n : ℕ) : colon ∉ decimal n :=
  fun h => (digit_of_mem_decimal h).2.2.2.2 rfl

theorem length_decimal_lt (hn : n < 10 ^ 9) : (decimal n).length < 10 := by
  rw [decimal]
  split
  · decide
  · exact length_numeral_lt hn

theorem exists_decimal_eq_cons (n : ℕ) : ∃ b l, decimal n = b :: l := by
  rw [decimal]
  split
  · exact ⟨_, _, rfl⟩
  · rename_i hn
    rw [numeral_eq (Nat.pos_of_ne_zero hn)]
    exact List.exists_cons_of_ne_nil (List.append_ne_nil_of_right_ne_nil _ (List.cons_ne_nil _ _))

/-- A number is read up to what follows it. -/
theorem takeWhile_decimal (n : ℕ) (hr : ∀ b ∈ r.head?, isDigit b = false) :
    (decimal n ++ r).takeWhile isDigit = decimal n ∧ (decimal n ++ r).dropWhile isDigit = r := by
  have hdigits : ∀ b ∈ decimal n, isDigit b = true := fun b hb => (digit_of_mem_decimal hb).1
  rw [List.takeWhile_append_of_pos hdigits, List.dropWhile_append_of_pos hdigits]
  cases r with
  | nil => exact ⟨List.append_nil _, rfl⟩
  | cons b r =>
    have hb : ¬ isDigit b = true := by rw [hr b rfl]; decide
    rw [List.takeWhile_cons_of_neg hb, List.dropWhile_cons_of_neg hb, List.append_nil]
    exact ⟨rfl, rfl⟩

theorem atoi_decimal (n : ℕ) (hr : ∀ b ∈ r.head?, isDigit b = false) :
    atoi (decimal n ++ r) = n := by
  rcases Nat.eq_zero_or_pos n with rfl | hn
  · have htake := (takeWhile_decimal 0 hr).1
    have hzero : decimal 0 ++ r = zero :: r := rfl
    rw [hzero] at htake ⊢
    rw [atoi, List.dropWhile_cons_of_neg (by decide)]
    simp only [htake]
    rfl
  · rw [decimal, if_neg hn.ne']
    exact atoi_numeral hn hr

/-- `%d` reads a number. -/
theorem scanInt_decimal (n : ℕ) (hr : ∀ b ∈ r.head?, isDigit b = false) :
    scanInt (decimal n ++ r) = some ((n : ℤ), r) := by
  obtain ⟨htake, hdrop⟩ := takeWhile_decimal n hr
  have hatoi := atoi_decimal n hr
  obtain ⟨b, l, hl⟩ := exists_decimal_eq_cons n
  obtain ⟨-, hspace, hminus, hplus, -⟩ := digit_of_mem_decimal (n := n) (b := b) (by simp [hl])
  have hskip : (decimal n ++ r).dropWhile isSpace = decimal n ++ r := by
    rw [hl, List.cons_append, List.dropWhile_cons_of_neg (by simp [hspace])]
  have hsign : ¬ ((decimal n ++ r).head? = some 45 ∨ (decimal n ++ r).head? = some 43) := by
    rw [hl, List.cons_append, List.head?_cons, Option.some_inj, Option.some_inj, not_or]
    exact ⟨hminus, hplus⟩
  have hdigit : decimal n ≠ [] := by rw [hl]; exact List.cons_ne_nil _ _
  rw [scanInt]
  simp only [hskip, if_neg hsign, htake, hdrop, hatoi, if_neg hdigit]

/-! ### One argument -/

variable {p : PipeSpec} {specs : List PipeSpec}

theorem isDigit_head_colon (l : List UInt8) : ∀ b ∈ (colon :: l).head?, isDigit b = false := by
  intro b hb
  obtain rfl := Option.some.inj hb
  decide

/-- The first colon ends the name. -/
theorem firstColon_format (p : PipeSpec) : firstColon p.format = some p.name.length := by
  rw [firstColon, List.find?_range_eq_some]
  refine ⟨?_, List.mem_range.mpr p.name_short, fun j hj => ?_⟩
  · rw [PipeSpec.format, List.getElem?_append_right le_rfl, Nat.sub_self, List.getElem?_cons_zero]
    exact decide_eq_true rfl
  · rw [PipeSpec.format, List.getElem?_append_left hj, List.getElem?_eq_getElem hj]
    have hne : p.name[j] ≠ colon := fun h => p.name_colon (h ▸ List.getElem_mem hj)
    simp [hne]

theorem take_format (p : PipeSpec) : p.format.take p.name.length = p.name := List.take_left' rfl

theorem drop_format (p : PipeSpec) : p.format.drop p.name.length =
    colon :: (decimal p.fdIn ++ colon :: (decimal p.fdOut ++ colon :: decimal p.timed)) :=
  List.drop_left' rfl

/-- Past a field and its colon. -/
theorem drop_field (l r : List UInt8) : (l ++ colon :: r).drop (l.length + 1) = r := by
  rw [List.drop_append, List.drop_eq_nil_of_le (Nat.le_succ _), List.nil_append,
    Nat.add_sub_cancel_left]
  rfl

theorem scanField_decimal (n : ℕ) (hr : ∀ b ∈ r.head?, isDigit b = false) :
    scanField (colon :: (decimal n ++ r)) = some ((n : ℤ), r) := by
  rw [scanField, if_pos rfl, scanInt_decimal n hr]

/-- `sscanf` reads the three numbers. -/
theorem scanFields_format (p : PipeSpec) :
    scanFields (p.format.drop p.name.length) = some ((p.fdIn : ℤ), (p.fdOut : ℤ), (p.timed : ℤ)) := by
  have hlast := scanField_decimal (r := []) p.timed fun b hb => by cases hb
  rw [List.append_nil] at hlast
  rw [drop_format, scanFields, scanField_decimal _ (isDigit_head_colon _)]
  simp only [Option.bind_eq_bind, Option.bind_some, scanField_decimal _ (isDigit_head_colon _),
    hlast]

/-- What VoterD makes of a pipe. -/
def PipeSpec.extPipe (p : PipeSpec) : VoterD.ExtPipe := ⟨p.name, p.fdIn, p.fdOut, p.timed ≠ 0⟩

theorem parsePipeString_format (p : PipeSpec) :
    VoterD.parsePipeString p.format = some p.extPipe := by
  rw [VoterD.parsePipeString, firstColon_format]
  simp only [Option.bind_eq_bind, Option.bind_some, scanFields_format, take_format,
    PipeSpec.extPipe, ne_eq, Nat.cast_eq_zero]

/-- What VoterM makes of a pipe. -/
def PipeSpec.scanned (p : PipeSpec) : VoterM.Scanned := ⟨p.name, p.fdIn, p.fdOut, p.timed⟩

theorem pipeFdString_decimal (hn : n < 10 ^ 9) (r : List UInt8) :
    VoterM.pipeFdString (decimal n ++ colon :: r) = some (decimal n) := by
  rw [VoterM.pipeFdString, scanColon_append (colon_notMem_decimal n)]
  simp only [Option.bind_eq_bind, Option.bind_some, if_pos (length_decimal_lt hn)]

theorem atoi_decimal_self (n : ℕ) : atoi (decimal n) = n := by
  have h := atoi_decimal (r := []) n fun b hb => by cases hb
  rwa [List.append_nil] at h

/-- The first pass takes the length of the name, and counts the pipe on its side. -/
theorem measure_format (t : VoterM.Lengths) (p : PipeSpec) : t.measure p.format =
    some ⟨t.strLengths ++ [p.name.length],
      t.inPipeCount + if p.fdIn ≠ 0 then 1 else 0,
      t.outPipeCount + if p.fdIn ≠ 0 then 0 else 1⟩ := by
  rw [VoterM.Lengths.measure, firstColon_format]
  have hfield := drop_field p.name
    (decimal p.fdIn ++ colon :: (decimal p.fdOut ++ colon :: decimal p.timed))
  rw [← PipeSpec.format] at hfield
  simp only [Option.bind_eq_bind, Option.bind_some, hfield, pipeFdString_decimal p.fd_lt.1,
    atoi_decimal_self]
  by_cases hin : p.fdIn = 0
  · rw [hin, if_neg (by simp), if_neg (by simp), if_neg (by simp)]
    rfl
  · rw [if_pos (by omega), if_pos hin, if_pos hin]
    rfl

/-- The second pass takes the name, and the three numbers. -/
theorem scanArg_format (p : PipeSpec) :
    VoterM.scanArg p.format p.name.length = some p.scanned := by
  have hfirst : p.format.drop (p.name.length + 1) =
      decimal p.fdIn ++ colon :: (decimal p.fdOut ++ colon :: decimal p.timed) := drop_field _ _
  have hsecond : p.format.drop (p.name.length + 1 + (decimal p.fdIn).length + 1) =
      decimal p.fdOut ++ colon :: decimal p.timed := by
    rw [add_assoc _ (decimal p.fdIn).length 1, ← List.drop_drop, hfirst, drop_field]
  have hthird : p.format.drop (p.name.length + 1 + (decimal p.fdIn).length + 1 +
      (decimal p.fdOut).length + 1) = decimal p.timed := by
    rw [add_assoc _ (decimal p.fdOut).length 1, ← List.drop_drop, hsecond, drop_field]
  rw [VoterM.scanArg]
  simp only [Option.bind_eq_bind, Option.bind_some, hfirst, hsecond, hthird,
    pipeFdString_decimal p.fd_lt.1, pipeFdString_decimal p.fd_lt.2, atoi_decimal_self, take_format]
  rfl

/-! ### All arguments -/

/-- The inputs and the outputs. -/
def inputs (specs : List PipeSpec) : List PipeSpec := specs.filter fun p => p.fdIn ≠ 0

def outputs (specs : List PipeSpec) : List PipeSpec := specs.filter fun p => p.fdOut ≠ 0

/-- The first pass finds the lengths of all names, and how many inputs and outputs there are. -/
theorem foldlM_measure (specs : List PipeSpec) (t : VoterM.Lengths) :
    (specs.map PipeSpec.format).foldlM VoterM.Lengths.measure t =
      some ⟨t.strLengths ++ specs.map (·.name.length), t.inPipeCount + (inputs specs).length,
        t.outPipeCount + (outputs specs).length⟩ := by
  induction specs generalizing t with
  | nil => simp [inputs, outputs]
  | cons p specs ih =>
    rw [List.map_cons, List.foldlM_cons, measure_format]
    simp only [Option.bind_eq_bind, Option.bind_some, ih]
    have hside := p.oneEnd
    by_cases hin : p.fdIn = 0
    · have hout : p.fdOut ≠ 0 := by omega
      simp [inputs, outputs, hin, hout, add_assoc, add_comm 1]
    · have hout : p.fdOut = 0 := by omega
      simp [inputs, outputs, hin, hout, add_assoc, add_comm 1]

/-- The second pass enters the pipes one after the other. -/
theorem foldlM_scanArg (specs : List PipeSpec) (t : VoterM.Table) :
    ((specs.map PipeSpec.format).zip (specs.map (·.name.length))).foldlM
      (fun t x => (VoterM.scanArg x.1 x.2).map t.enter) t =
      some (specs.foldl (fun t p => t.enter p.scanned) t) := by
  induction specs generalizing t with
  | nil => rfl
  | cons p specs ih =>
    rw [List.map_cons, List.map_cons, List.zip_cons_cons, List.foldlM_cons, scanArg_format]
    exact ih _

/-- The arrays hold the pipes of a list, up to where they are filled. -/
structure VoterM.Table.Holds (t : VoterM.Table) (specs : List PipeSpec) : Prop where
  cInPipe : t.cInPipe = (inputs specs).length
  cOutPipe : t.cOutPipe = (outputs specs).length
  extInFds : block t.extInFds 0 t.cInPipe = (inputs specs).map (·.fdIn)
  repInfoIn : block t.repInfoIn 0 t.cInPipe = (inputs specs).map (·.name)
  extOutFds : block t.extOutFds 0 t.cOutPipe = (outputs specs).map (·.fdOut)
  repInfoOut : block t.repInfoOut 0 t.cOutPipe = (outputs specs).map (·.name)

/-- One more cell behind the first `n`. -/
theorem block_update {α : Type*} (m : Mem α) (n : ℕ) (x : α) :
    block (Function.update m n x) 0 (n + 1) = block m 0 n ++ [x] := by
  have hbefore : block (Function.update m n x) 0 n = block m 0 n := by
    refine block_eq_block_iff.mpr fun k hk => ?_
    rw [zero_add, Function.update_of_ne hk.ne]
  rw [block_add, hbefore, zero_add]
  simp [block]

/-- A round of the second pass. -/
theorem VoterM.Table.Holds.enter {t : VoterM.Table} (h : t.Holds specs) (p : PipeSpec) :
    (t.enter p.scanned).Holds (specs ++ [p]) := by
  have hword : ∀ {n : ℕ}, n < 10 ^ 9 → ((n : ℤ) % 2 ^ 32).toNat = n := by omega
  have hin : inputs (specs ++ [p]) = inputs specs ++ inputs [p] := List.filter_append ..
  have hout : outputs (specs ++ [p]) = outputs specs ++ outputs [p] := List.filter_append ..
  have hside := p.oneEnd
  rw [VoterM.Table.enter]
  by_cases hfd : p.fdIn = 0
  · -- an output: the inputs stay as they are
    have hpin : inputs [p] = [] := by simp [inputs, hfd]
    have hpout : outputs [p] = [p] := by simp [outputs, show p.fdOut ≠ 0 by omega]
    rw [if_neg (by simp [PipeSpec.scanned, hfd])]
    constructor
    · rw [hin, hpin, List.append_nil]
      exact h.cInPipe
    · rw [hout, hpout, List.length_append, List.length_singleton, ← h.cOutPipe]
    · rw [hin, hpin, List.append_nil]
      exact h.extInFds
    · rw [hin, hpin, List.append_nil]
      exact h.repInfoIn
    · rw [hout, hpout, List.map_append, ← h.extOutFds, block_update]
      simp only [PipeSpec.scanned, hword p.fd_lt.2, List.map_cons, List.map_nil]
    · rw [hout, hpout, List.map_append, ← h.repInfoOut, block_update]
      rfl
  · -- an input
    have hpin : inputs [p] = [p] := by simp [inputs, hfd]
    have hpout : outputs [p] = [] := by simp [outputs, show p.fdOut = 0 by omega]
    rw [if_pos (by simp only [PipeSpec.scanned]; omega)]
    constructor
    · rw [hin, hpin, List.length_append, List.length_singleton, ← h.cInPipe]
    · rw [hout, hpout, List.append_nil]
      exact h.cOutPipe
    · rw [hin, hpin, List.map_append, ← h.extInFds, block_update]
      simp only [PipeSpec.scanned, hword p.fd_lt.1, List.map_cons, List.map_nil]
    · rw [hin, hpin, List.map_append, ← h.repInfoIn, block_update]
      rfl
    · rw [hout, hpout, List.append_nil]
      exact h.extOutFds
    · rw [hout, hpout, List.append_nil]
      exact h.repInfoOut

/-- The whole second pass. -/
theorem VoterM.Table.Holds.foldl {t : VoterM.Table} {before : List PipeSpec} (h : t.Holds before)
    (specs : List PipeSpec) :
    (specs.foldl (fun t p => t.enter p.scanned) t).Holds (before ++ specs) := by
  induction specs generalizing t before with
  | nil =>
    rw [List.append_nil]
    exact h
  | cons p specs ih =>
    rw [List.foldl_cons, List.append_cons]
    exact ih (h.enter p)

/-- What VoterM has read of a list of pipes: the counts of the first pass are those of the second,
and the arrays hold the inputs and the outputs in order. -/
structure VoterM.Table.Recovers (t : VoterM.Table) (specs : List PipeSpec) : Prop
    extends t.Holds specs where
  inPipeCount : t.inPipeCount = (inputs specs).length
  outPipeCount : t.outPipeCount = (outputs specs).length

theorem counts_foldl (specs : List PipeSpec) (t : VoterM.Table) :
    (specs.foldl (fun t p => t.enter p.scanned) t).inPipeCount = t.inPipeCount ∧
      (specs.foldl (fun t p => t.enter p.scanned) t).outPipeCount = t.outPipeCount := by
  induction specs generalizing t with
  | nil => exact ⟨rfl, rfl⟩
  | cons p specs ih =>
    have henter : (t.enter p.scanned).inPipeCount = t.inPipeCount ∧
        (t.enter p.scanned).outPipeCount = t.outPipeCount := by
      rw [VoterM.Table.enter]
      split <;> exact ⟨rfl, rfl⟩
    rw [List.foldl_cons, ← henter.1, ← henter.2]
    exact ih _

/-- Both passes of VoterM. -/
theorem parsePipeStrings_voterM (memory : VoterM.Table) (specs : List PipeSpec) :
    VoterM.parsePipeStrings memory (specs.map PipeSpec.format) =
      some (specs.foldl (fun t p => t.enter p.scanned) (VoterM.Table.empty memory
        ⟨specs.map (·.name.length), (inputs specs).length, (outputs specs).length⟩)) := by
  rw [VoterM.parsePipeStrings, foldlM_measure]
  simp only [Option.bind_eq_bind, Option.bind_some, List.nil_append, zero_add]
  exact foldlM_scanArg specs _

/-- VoterM has read any list of pipes. -/
theorem recovers_voterM (memory : VoterM.Table) (specs : List PipeSpec) :
    ∃ t ∈ VoterM.parsePipeStrings memory (specs.map PipeSpec.format), t.Recovers specs := by
  refine ⟨_, parsePipeStrings_voterM memory specs, ?_⟩
  have hstart : (VoterM.Table.empty memory ⟨specs.map (·.name.length), (inputs specs).length,
      (outputs specs).length⟩).Holds [] := ⟨rfl, rfl, rfl, rfl, rfl, rfl⟩
  obtain ⟨hin, hout⟩ := counts_foldl specs (VoterM.Table.empty memory
    ⟨specs.map (·.name.length), (inputs specs).length, (outputs specs).length⟩)
  exact ⟨hstart.foldl specs, hin, hout⟩

/-- The loop of VoterD. -/
theorem parsePipeStrings_voterD (h : specs.length ≤ VoterD.pipeLimit) :
    VoterD.parsePipeStrings (specs.map PipeSpec.format) =
      some (specs.length, specs.map PipeSpec.extPipe) := by
  have hall : ∀ l : List PipeSpec, (l.map PipeSpec.format).mapM VoterD.parsePipeString =
      some (l.map PipeSpec.extPipe) := by
    intro l
    induction l with
    | nil => rfl
    | cons p l ih =>
      rw [List.map_cons, List.mapM_cons, parsePipeString_format, ih]
      rfl
  have hlength : (specs.map PipeSpec.format).length = specs.length := List.length_map _
  rw [VoterD.parsePipeStrings, List.take_of_length_le (hlength.trans_le h), hall, hlength,
    Nat.min_eq_left h]
  rfl

/-- **The pipes are read back.** VoterD has the names, the descriptors and whether they are timed,
in order; VoterM the inputs and the outputs, each in order. -/
theorem pipes_recovered (specs : List PipeSpec) (h : specs.length ≤ VoterD.pipeLimit)
    (memory : VoterM.Table) :
    VoterD.parsePipeStrings (specs.map PipeSpec.format) =
      some (specs.length, specs.map PipeSpec.extPipe) ∧
    ∃ t ∈ VoterM.parsePipeStrings memory (specs.map PipeSpec.format), t.Recovers specs :=
  ⟨parsePipeStrings_voterD h, recovers_voterM memory specs⟩

/-- An input and an output of one timer. -/
def samplePipes : List PipeSpec :=
  [⟨messageT .rangePoseData, 17, 0, 1, by decide, by decide, by decide, by decide, by decide⟩,
    ⟨messageT .mapUpdate, 0, 100, 1, by decide, by decide, by decide, by decide, by decide⟩]

theorem pipes_recovered_samplePipes :
    VoterD.parsePipeStrings (samplePipes.map PipeSpec.format) =
      some (samplePipes.length, samplePipes.map PipeSpec.extPipe) ∧
    ∃ t ∈ VoterM.parsePipeStrings ⟨0, 0, fun _ => 0, fun _ => [], fun _ => 0, fun _ => [], 0,
      fun _ => 0, fun _ => 0, 0, 0⟩ (samplePipes.map PipeSpec.format), t.Recovers samplePipes :=
  pipes_recovered samplePipes (by decide) _

/-! ### The plumber -/

/-- `launch_node`: what it prints of a pipe for a voter, `%s:%d`. -/
def launchArg (memory : ℤ → UInt8) (pipe : TypedPipe) (timed : ℕ) : List UInt8 :=
  (serializePipe memory pipe).block.takeWhile (· ≠ 0) ++ colon :: decimal timed

variable {pipe : TypedPipe} {timed : ℕ}

theorem length_messageT_lt (type : CommMessage) : (messageT type).length < 100 := by
  cases type <;> decide

/-- The pipe that is printed. -/
def launchSpec (h : OneEnd pipe n) (htimed : timed ≤ 2) : PipeSpec where
  name := messageT pipe.type
  fdIn := pipe.fdIn.toNat
  fdOut := pipe.fdOut.toNat
  timed := timed
  name_colon := colon_notMem_messageT pipe.type
  name_short := length_messageT_lt pipe.type
  oneEnd := by
    obtain ⟨hn, -, hfd⟩ := h
    omega
  fd_lt := by
    obtain ⟨hn, hlt, hfd⟩ := h
    omega
  timed_le := htimed

/-- The plumber prints in the format, for the descriptors that `serializePipe` gets right. -/
theorem launchArg_eq_format (memory : ℤ → UInt8) (h : OneEnd pipe n) (hzero : NoInnerZero n)
    (htimed : timed ≤ 2) : launchArg memory pipe timed = (launchSpec h htimed).format := by
  have hdigit : ∀ {k : ℕ} {b : UInt8}, b ∈ decimal k → b ≠ 0 := by
    rintro k b hb rfl
    exact absurd (digit_of_mem_decimal hb).1 (by decide)
  have htext : ∀ b ∈ pipeText pipe, b ≠ 0 := by
    intro b hb
    rw [pipeText, List.mem_append, List.mem_cons, List.mem_append, List.mem_cons] at hb
    rcases hb with hb | rfl | hb | rfl | hb
    · exact fun hzero => zero_notMem_messageT pipe.type (hzero ▸ hb)
    · decide
    · exact hdigit hb
    · decide
    · exact hdigit hb
  have htake : (pipeText pipe ++ [0]).takeWhile (· ≠ 0) = pipeText pipe := by
    rw [List.takeWhile_append_of_pos (by simpa using htext)]
    exact List.append_nil _
  rw [launchArg, block_serializePipe memory h hzero, htake, pipeText, List.append_assoc,
    List.cons_append, List.append_assoc, List.cons_append]
  rfl

/-! ### Arguments that are already split -/

/-- The argument as the models of the voters have it, for a way to read names. -/
def PipeSpec.arg (decode : List UInt8 → String) (p : PipeSpec) : VoterM.PipeArg :=
  ⟨decode p.name, p.fdIn, p.fdOut, p.timed⟩

/-- VoterM has filled in the same, up to where the arrays are filled. -/
structure Agrees (decode : List UInt8 → String) (t : VoterM.Table) (u : VoterM.Pipes) : Prop where
  cInPipe : t.cInPipe = u.inPipeCount
  cOutPipe : t.cOutPipe = u.outPipeCount
  ins : ∀ k < t.cInPipe, t.extInFds k = u.extInFds k ∧ decode (t.repInfoIn k) = u.repInfoIn k
  outs : ∀ k < t.cOutPipe, t.extOutFds k = u.extOutFds k ∧ decode (t.repInfoOut k) = u.repInfoOut k
  indexedPipes : t.indexedPipes = u.indexedPipes
  timerStartIndex : ∀ k : ℕ, t.timerStartIndex k = u.timerStartIndex k
  timerStopIndex : ∀ k : ℕ, t.timerStopIndex k = u.timerStopIndex k

/-- The filled part of an array grows by one entry. -/
theorem agree_update {α β : Type*} {a : ℕ → α} {b : ℕ → β} {R : α → β → Prop} {n : ℕ} {x : α}
    {y : β} (h : ∀ k < n, R (a k) (b k)) (hxy : R x y) :
    ∀ k < n + 1, R (Function.update a n x k) (Function.update b n y k) := by
  intro k hk
  rcases Nat.lt_succ_iff_lt_or_eq.mp hk with hlt | rfl
  · rw [Function.update_of_ne hlt.ne, Function.update_of_ne hlt.ne]
    exact h k hlt
  · rw [Function.update_self, Function.update_self]
    exact hxy

/-- A timer array of VoterM after a pipe with the timer index `timed`. -/
theorem timer_update {a : ℤ → ℕ} {b : ℕ → ℕ} (h : ∀ k : ℕ, a k = b k) (timed n : ℕ) (k : ℕ) :
    (if (timed : ℤ) ≠ 0 then Function.update a (timed - 1) n else a) k =
      (if timed ≠ 0 then Function.update b (timed - 1) n else b) k := by
  by_cases htimed : timed = 0
  · rw [if_neg (by simp [htimed]), if_neg (by simp [htimed])]
    exact h k
  · have hindex : (timed : ℤ) - 1 = (timed - 1 : ℕ) := by omega
    rw [if_pos (by omega), if_pos htimed, hindex]
    by_cases hk : k = timed - 1
    · rw [hk, Function.update_self, Function.update_self]
    · rw [Function.update_of_ne hk, Function.update_of_ne (by exact_mod_cast hk)]
      exact h k

theorem Agrees.enter {decode : List UInt8 → String} {t : VoterM.Table} {u : VoterM.Pipes}
    (h : Agrees decode t u) (p : PipeSpec) :
    Agrees decode (t.enter p.scanned) (VoterM.parsePipe u (p.arg decode)) := by
  have hword : ∀ {n : ℕ}, n < 10 ^ 9 → ((n : ℤ) % 2 ^ 32).toNat = n := by omega
  obtain ⟨hin, hout, hins, houts, hindexed, hstart, hstop⟩ := h
  rw [VoterM.Table.enter, VoterM.parsePipe]
  by_cases hfd : p.fdIn = 0
  · -- an output
    have htable : ¬ 0 ≠ p.scanned.fdIn := not_not.mpr (by rw [PipeSpec.scanned, hfd]; rfl)
    have harg : ¬ (p.arg decode).fdIn ≠ 0 := not_not.mpr hfd
    rw [if_neg htable, if_neg harg]
    refine ⟨hin, congrArg (· + 1) hout, hins, fun k hk => ⟨?_, ?_⟩, hindexed, hstart, ?_⟩
    · rw [← hout]
      exact agree_update (fun k hk => (houts k hk).1) (hword p.fd_lt.2) k hk
    · rw [← hout]
      exact agree_update (R := fun l name => decode l = name) (fun k hk => (houts k hk).2) rfl k hk
    · rw [← hout]
      exact timer_update hstop p.timed t.cOutPipe
  · -- an input
    have htable : 0 ≠ p.scanned.fdIn := by
      rw [PipeSpec.scanned]
      exact (Nat.cast_ne_zero.mpr hfd).symm
    have harg : (p.arg decode).fdIn ≠ 0 := hfd
    have htimed : p.scanned.timed ≠ 0 ↔ (p.arg decode).timed ≠ 0 := Nat.cast_ne_zero
    rw [if_pos htable, if_pos harg]
    refine ⟨congrArg (· + 1) hin, hout, fun k hk => ⟨?_, ?_⟩, houts, ?_, ?_, hstop⟩
    · rw [← hin]
      exact agree_update (fun k hk => (hins k hk).1) (hword p.fd_lt.1) k hk
    · rw [← hin]
      exact agree_update (R := fun l name => decode l = name) (fun k hk => (hins k hk).2) rfl k hk
    · simp only [htimed, hindexed]
    · rw [← hin]
      exact timer_update hstart p.timed t.cInPipe

/-- **VoterM.** What it has read of the strings is what the model makes of split arguments. -/
theorem agrees_parsePipes (decode : List UInt8 → String) (memory : VoterM.Table)
    (specs : List PipeSpec) :
    ∃ t ∈ VoterM.parsePipeStrings memory (specs.map PipeSpec.format),
      Agrees decode t (VoterM.parsePipes (specs.map (·.arg decode))) := by
  have hfold : ∀ (t : VoterM.Table) (u : VoterM.Pipes), Agrees decode t u →
      Agrees decode (specs.foldl (fun t p => t.enter p.scanned) t)
        ((specs.map (·.arg decode)).foldl VoterM.parsePipe u) := by
    induction specs with
    | nil => exact fun _ _ h => h
    | cons p specs ih => exact fun t u h => ih _ _ (h.enter p)
  refine ⟨_, parsePipeStrings_voterM memory specs, hfold _ _ ?_⟩
  exact ⟨rfl, rfl, fun k hk => absurd hk k.not_lt_zero, fun k hk => absurd hk k.not_lt_zero, rfl,
    fun _ => rfl, fun _ => rfl⟩

/-- **VoterD.** The configuration of the model has the pipes that were read of the strings. -/
theorem extPipes_parseArgs (decode : List UInt8 → String) (h : specs.length ≤ VoterD.pipeLimit)
    (type : String) (timeout priority : ℤ) (memory : ℕ → VotePipe) :
    ∃ x ∈ VoterD.parsePipeStrings (specs.map PipeSpec.format),
      let c := VoterD.parseArgs type timeout priority
        (specs.map fun p => toVoterD (p.arg decode)) memory
      c.pipeCount = x.1 ∧ ∀ i, ∀ e ∈ x.2[i]?, (c.extPipes i).repInfo = decode e.repInfo ∧
        ((c.extPipes i).fdIn : ℤ) = e.fdIn ∧ ((c.extPipes i).fdOut : ℤ) = e.fdOut ∧
        (c.extPipes i).timed = e.timed := by
  refine ⟨_, parsePipeStrings_voterD h, ?_, fun i e he => ?_⟩
  · have hlength : (specs.map fun p => toVoterD (p.arg decode)).length = specs.length :=
      List.length_map _
    exact (congrArg (min · VoterD.pipeLimit) hlength).trans (Nat.min_eq_left h)
  · rw [List.getElem?_map, Option.mem_def, Option.map_eq_some_iff] at he
    obtain ⟨p, hp, rfl⟩ := he
    obtain ⟨hi, rfl⟩ := List.getElem?_eq_some_iff.mp hp
    have hi' : i < (specs.map fun p => toVoterD (p.arg decode)).length := by
      rwa [List.length_map]
    simp only [VoterD.parseArgs, dif_pos hi', List.getElem_map]
    exact ⟨rfl, rfl, rfl, rfl⟩

end S3RES
