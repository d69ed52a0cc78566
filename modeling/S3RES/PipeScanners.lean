import S3RES.PipeArguments

/-!
# The scanners on any string

What `deserializePipe`, VoterD's `parsePipe` and VoterM's `parseArgs` do with a string that need
not be in the format of the plumber. Each goes through the bytes as the code does and stops with
a `Fault` at the first access that is outside the string or the array of digits, and at the first
use of a descriptor or a length that was not set.

`scanners_survive_iff`: for each of the three, which strings it gets through. It says this by the
shape of the string, not by what the scanner does with it. `parsePipes_of_some` and its like: where
the readers of `PipeArguments` have a result, these have the same.
-/

namespace S3RES

/-- An argument, without the zero at its end. -/
structure Argument where
  bytes : List UInt8
  terminated : 0 ∉ bytes

/-- What a scanner may not do. -/
inductive Fault
  /-- It reads behind the zero at the end of the string. -/
  | pastTerminator
  /-- It goes past the ten bytes of its array of digits. -/
  | pastBuffer
  /-- It uses a descriptor or a length that was not set. -/
  | unset
  deriving DecidableEq

/-- There is a result. -/
def Survives {α : Type*} (x : Except Fault α) : Prop := ∃ a, x = .ok a

namespace Scan

/-! ### The loops -/

/-- `while (serial[index] != ':')`. The zero at the end is no colon, and behind it is nothing to
read. -/
def untilColon : List UInt8 → Except Fault (List UInt8 × List UInt8)
  | [] => .error .pastTerminator
  | b :: l => if b = colon then .ok ([], l) else (untilColon l).map fun x => (b :: x.1, x.2)

/-- The loop that also stores the bytes, in an array that has this much room left. -/
def fillDigits : ℕ → List UInt8 → Except Fault (List UInt8 × List UInt8)
  | 0, [] => .error .pastBuffer
  | _ + 1, [] => .error .pastTerminator
  | 0, b :: l => if b = colon then .ok ([], l) else .error .pastBuffer
  | room + 1, b :: l =>
    if b = colon then .ok ([], l) else (fillDigits room l).map fun x => (b :: x.1, x.2)

/-- The loop over the first bytes, as many as there are rounds left, up to a colon. -/
def searchColon : ℕ → List UInt8 → Except Fault (Option (List UInt8 × List UInt8))
  | 0, _ => .ok none
  | 1, [] => .ok none
  | _ + 2, [] => .error .pastTerminator
  | n + 1, b :: l =>
    if b = colon then .ok (some ([], l))
    else (searchColon n l).map fun x => x.map fun x => (b :: x.1, x.2)

/-- What follows the spaces and the sign. -/
def digitsFrom (l : List UInt8) : List UInt8 :=
  let l := l.dropWhile isSpace
  if l.head? = some 45 ∨ l.head? = some 43 then l.tail else l

/-- The array of digits. -/
def buffer (digit : List UInt8) : List UInt8 := digit ++ List.replicate (10 - digit.length) 0

/-- `atoi` of the array, which has to end inside of it. -/
def atoiDigit (digit : List UInt8) : Except Fault ℤ :=
  if (digitsFrom (buffer digit)).dropWhile isDigit = [] then .error .pastBuffer
  else .ok (atoi (buffer digit))

/-- A field up to its colon. -/
def fdField (l : List UInt8) : Except Fault (ℤ × List UInt8) := do
  let (digit, rest) ← fillDigits 10 l
  let fd ← atoiDigit digit
  .ok (fd, rest)

/-- What `sscanf` assigns of this many `:%d`. -/
def sscanf : ℕ → List UInt8 → List ℤ
  | 0, _ => []
  | n + 1, l =>
    match scanField l with
    | none => []
    | some (fd, l) => fd :: sscanf n l

/-! ### The scanners -/

/-- `deserializePipe`. -/
def deserializePipe (serial : Argument) : Except Fault TypedPipe := do
  let (type, rest) ← untilColon serial.bytes
  let (fdIn, rest) ← fdField rest
  .ok ⟨commToEnum type, fdIn, atoi rest⟩

/-- What VoterD has of a pipe; `timed` may be what happened to be in the variable. -/
structure Parsed where
  repInfo : List UInt8
  fdIn : ℤ
  fdOut : ℤ
  timed : Option ℤ
  deriving DecidableEq

/-- `parsePipe` of VoterD. -/
def parsePipe (serial : Argument) : Except Fault Parsed := do
  match ← searchColon 100 serial.bytes with
  -- str_length goes to malloc
  | none => .error .unset
  | some (name, rest) =>
    -- in and out are stored whatever sscanf has assigned
    match sscanf 3 (colon :: rest) with
    | fdIn :: fdOut :: timed => .ok ⟨name, fdIn, fdOut, timed.head?⟩
    | _ => .error .unset

/-- A round of the first pass of VoterM. -/
def measure (t : VoterM.Lengths) (serial : Argument) : Except Fault VoterM.Lengths := do
  match ← searchColon 100 serial.bytes with
  -- in is compared with 0
  | none => .error .unset
  | some (name, rest) =>
    let (fdIn, _) ← fdField rest
    if 0 ≠ fdIn then
      .ok { t with strLengths := t.strLengths ++ [name.length], inPipeCount := t.inPipeCount + 1 }
    else
      .ok { t with strLengths := t.strLengths ++ [name.length], outPipeCount := t.outPipeCount + 1 }

/-- The scanners of the second pass. -/
def scanArg (serial : Argument) (strLength : ℕ) : Except Fault VoterM.Scanned := do
  -- past the first colon
  let (fdIn, rest) ← fdField (serial.bytes.drop (strLength + 1))
  let (fdOut, rest) ← fdField rest
  .ok ⟨serial.bytes.take strLength, fdIn, fdOut, atoi rest⟩

/-- The two passes of `parseArgs` of VoterM. -/
def parsePipes (memory : VoterM.Table) (args : List Argument) : Except Fault VoterM.Table := do
  let lengths ← args.foldlM measure ⟨[], 0, 0⟩
  (args.zip lengths.strLengths).foldlM
    (fun t x => (scanArg x.1 x.2).map t.enter) (VoterM.Table.empty memory lengths)

/-! ### Shapes of strings -/

/-- Spaces, a sign and digits, any of which may be missing. -/
def Numeric (spaces sign digits : List UInt8) : Prop :=
  (∀ b ∈ spaces, isSpace b = true) ∧ (sign = [] ∨ sign = [45] ∨ sign = [43]) ∧
    ∀ b ∈ digits, isDigit b = true

/-- A number as `%d` wants it. -/
def IsNumber (l : List UInt8) : Prop :=
  ∃ spaces sign digits, Numeric spaces sign digits ∧ digits ≠ [] ∧ l = spaces ++ sign ++ digits

/-- A field that goes into the array. With ten bytes there is no zero behind them, and `atoi` has
to stop at one of them. -/
def Fits (digit : List UInt8) : Prop :=
  colon ∉ digit ∧ (digit.length < 10 ∨ digit.length = 10 ∧
    ∀ spaces sign digits, Numeric spaces sign digits → digit ≠ spaces ++ sign ++ digits)

/-- `TYPE:fd_in:fd_out`, where anything may stand for the type and behind the second colon. -/
def OneField (serial : List UInt8) : Prop :=
  ∃ type digit rest, colon ∉ type ∧ Fits digit ∧ serial = type ++ colon :: (digit ++ colon :: rest)

/-- A name with its colon among the first 100 bytes, and two numbers. -/
def TwoNumbers (serial : List UInt8) : Prop :=
  ∃ name fdIn fdOut rest, colon ∉ name ∧ name.length < 100 ∧ IsNumber fdIn ∧ IsNumber fdOut ∧
    serial = name ++ colon :: (fdIn ++ colon :: (fdOut ++ rest))

/-- A name with its colon among the first 100 bytes, and two fields with theirs. -/
def TwoFields (serial : List UInt8) : Prop :=
  ∃ name fdIn fdOut rest, colon ∉ name ∧ name.length < 100 ∧ Fits fdIn ∧ Fits fdOut ∧
    serial = name ++ colon :: (fdIn ++ colon :: (fdOut ++ colon :: rest))

/-! ### Results -/

section Results

variable {α β : Type}

theorem bind_eq_ok {x : Except Fault α} {f : α → Except Fault β} {b : β} :
    x >>= f = .ok b ↔ ∃ a, x = .ok a ∧ f a = .ok b := by
  cases x with
  | error fault =>
    refine iff_of_false (fun h => ?_) (fun h => ?_)
    · cases h
    · obtain ⟨_, h, -⟩ := h
      cases h
  | ok a =>
    refine ⟨fun h => ⟨a, rfl, h⟩, fun h => ?_⟩
    obtain ⟨_, heq, h⟩ := h
    exact Except.ok.inj heq ▸ h

theorem survives_bind {x : Except Fault α} {f : α → Except Fault β} :
    Survives (x >>= f) ↔ ∃ a, x = .ok a ∧ Survives (f a) := by
  simp only [Survives, bind_eq_ok]
  constructor
  · rintro ⟨b, a, ha, hb⟩
    exact ⟨a, ha, b, hb⟩
  · rintro ⟨a, ha, b, hb⟩
    exact ⟨b, a, ha, hb⟩

theorem map_eq_ok {x : Except Fault α} {f : α → β} {b : β} :
    x.map f = .ok b ↔ ∃ a, x = .ok a ∧ f a = b := by
  have hmap : x.map f = x >>= fun a => .ok (f a) := by
    cases x <;> rfl
  rw [hmap, bind_eq_ok]
  exact exists_congr fun a => and_congr_right fun _ => ⟨Except.ok.inj, congrArg _⟩

theorem survives_map {x : Except Fault α} {f : α → β} : Survives (x.map f) ↔ Survives x := by
  simp only [Survives, map_eq_ok]
  constructor
  · rintro ⟨-, a, h, -⟩
    exact ⟨a, h⟩
  · rintro ⟨a, h⟩
    exact ⟨f a, a, h, rfl⟩

/-- Rounds that each depend on their item alone. -/
theorem survives_foldlM {f : β → α → Except Fault β} {P : α → Prop}
    (h : ∀ b a, Survives (f b a) ↔ P a) (l : List α) (b : β) :
    Survives (l.foldlM f b) ↔ ∀ a ∈ l, P a := by
  induction l generalizing b with
  | nil => exact iff_of_true ⟨b, rfl⟩ fun _ ha => absurd ha List.not_mem_nil
  | cons a l ih =>
    rw [List.foldlM_cons, survives_bind, List.forall_mem_cons, ← h b a]
    constructor
    · rintro ⟨b', hb', hrest⟩
      exact ⟨⟨b', hb'⟩, (ih b').mp hrest⟩
    · rintro ⟨⟨b', hb'⟩, hrest⟩
      exact ⟨b', hb', (ih b').mpr hrest⟩

end Results

/-! ### What the loops find -/

variable {l r digit name : List UInt8} {b : UInt8}

/-- The first colon is behind `name`. -/
def Splits (l name r : List UInt8) : Prop := colon ∉ name ∧ l = name ++ colon :: r

theorem not_splits_nil : ¬ Splits [] name r := by
  rintro ⟨-, heq⟩
  exact absurd heq.symm (List.append_ne_nil_of_right_ne_nil _ (List.cons_ne_nil _ _))

theorem splits_colon : Splits (colon :: l) name r ↔ name = [] ∧ l = r := by
  constructor
  · rintro ⟨hname, heq⟩
    cases name with
    | nil => exact ⟨rfl, (List.cons.inj heq).2⟩
    | cons b name =>
      rw [List.cons_append, List.cons.injEq] at heq
      exact absurd (heq.1 ▸ List.mem_cons_self) hname
  · rintro ⟨rfl, rfl⟩
    exact ⟨List.not_mem_nil, rfl⟩

theorem splits_cons (hb : b ≠ colon) :
    Splits (b :: l) name r ↔ ∃ name', Splits l name' r ∧ b :: name' = name := by
  constructor
  · rintro ⟨hname, heq⟩
    cases name with
    | nil => exact absurd (List.cons.inj heq).1 hb
    | cons b' name =>
      rw [List.cons_append, List.cons.injEq] at heq
      exact ⟨name, ⟨fun h => hname (List.mem_cons_of_mem _ h), heq.2⟩, by rw [heq.1]⟩
  · rintro ⟨name', ⟨hname, rfl⟩, rfl⟩
    refine ⟨fun h => ?_, rfl⟩
    rcases List.mem_cons.mp h with h | h
    · exact hb h.symm
    · exact hname h

theorem untilColon_eq_ok : untilColon l = .ok (name, r) ↔ Splits l name r := by
  induction l generalizing name with
  | nil => exact iff_of_false (fun h => by cases h) not_splits_nil
  | cons b l ih =>
    rw [untilColon]
    split
    · rename_i hb
      rw [hb, splits_colon, Except.ok.injEq, Prod.mk.injEq, eq_comm (a := name)]
    · rename_i hb
      rw [map_eq_ok, splits_cons hb]
      constructor
      · rintro ⟨⟨name', r'⟩, hrest, heq⟩
        obtain ⟨rfl, rfl⟩ := Prod.mk.inj heq
        exact ⟨name', ih.mp hrest, rfl⟩
      · rintro ⟨name', hrest, rfl⟩
        exact ⟨(name', r), ih.mpr hrest, rfl⟩

/-- The same, with room for the bytes before it. -/
theorem fillDigits_eq_ok {room : ℕ} :
    fillDigits room l = .ok (digit, r) ↔ Splits l digit r ∧ digit.length ≤ room := by
  induction l generalizing digit room with
  | nil =>
    refine iff_of_false (fun h => ?_) fun h => not_splits_nil h.1
    cases room with
    | zero => cases h
    | succ room => cases h
  | cons b l ih =>
    by_cases hb : b = colon
    · rw [hb, splits_colon]
      have hstop : fillDigits room (colon :: l) = .ok ([], l) := by
        cases room with
        | zero => rw [fillDigits, if_pos rfl]
        | succ room => rw [fillDigits, if_pos rfl]
      rw [hstop, Except.ok.injEq, Prod.mk.injEq, eq_comm (a := ([] : List UInt8))]
      exact ⟨fun h => ⟨h, by rw [h.1]; exact Nat.zero_le _⟩, And.left⟩
    · rw [splits_cons hb]
      cases room with
      | zero =>
        rw [fillDigits, if_neg hb]
        refine iff_of_false (fun h => by cases h) ?_
        rintro ⟨⟨digit', -, rfl⟩, hlength⟩
        exact absurd hlength (Nat.not_succ_le_zero _)
      | succ room =>
        rw [fillDigits, if_neg hb, map_eq_ok]
        constructor
        · rintro ⟨⟨digit', r'⟩, hrest, heq⟩
          obtain ⟨rfl, rfl⟩ := Prod.mk.inj heq
          obtain ⟨hsplit, hlength⟩ := ih.mp hrest
          exact ⟨⟨digit', hsplit, rfl⟩, Nat.succ_le_succ hlength⟩
        · rintro ⟨⟨digit', hsplit, rfl⟩, hlength⟩
          exact ⟨(digit', r), ih.mpr ⟨hsplit, Nat.le_of_succ_le_succ hlength⟩, rfl⟩

/-- The same, with a colon among the first `n` bytes. -/
theorem searchColon_eq_ok {n : ℕ} :
    searchColon n l = .ok (some (name, r)) ↔ Splits l name r ∧ name.length < n := by
  induction l generalizing name n with
  | nil =>
    refine iff_of_false (fun h => ?_) fun h => not_splits_nil h.1
    rcases n with _ | _ | n
    · cases h
    · cases h
    · cases h
  | cons b l ih =>
    cases n with
    | zero => exact iff_of_false (fun h => by cases h) fun h => Nat.not_lt_zero _ h.2
    | succ n =>
      rw [searchColon]
      split
      · rename_i hb
        rw [hb, splits_colon, Except.ok.injEq, Option.some_inj, Prod.mk.injEq,
          eq_comm (a := ([] : List UInt8))]
        exact ⟨fun h => ⟨h, by rw [h.1]; exact Nat.succ_pos _⟩, And.left⟩
      · rename_i hb
        rw [map_eq_ok, splits_cons hb]
        constructor
        · rintro ⟨x, hrest, heq⟩
          obtain ⟨⟨name', r'⟩, rfl, hcons⟩ := Option.map_eq_some_iff.mp heq
          obtain ⟨rfl, rfl⟩ := Prod.mk.inj hcons
          obtain ⟨hsplit, hlength⟩ := ih.mp hrest
          exact ⟨⟨name', hsplit, rfl⟩, Nat.succ_lt_succ hlength⟩
        · rintro ⟨⟨name', hsplit, rfl⟩, hlength⟩
          exact ⟨some (name', r), ih.mpr ⟨hsplit, Nat.lt_of_succ_lt_succ hlength⟩, rfl⟩

/-! ### Numbers -/

/-- A digit is no space, no sign and no zero. -/
theorem not_of_isDigit (hb : isDigit b = true) :
    isSpace b = false ∧ b ≠ 45 ∧ b ≠ 43 ∧ b ≠ 0 := by
  have hlow : 48 ≤ b.toNat := by
    simp only [isDigit, Bool.and_eq_true, decide_eq_true_eq, UInt8.le_iff_toNat_le] at hb
    exact hb.1
  have hne : ∀ c : UInt8, c.toNat < 48 → b ≠ c := by
    rintro c hc rfl
    omega
  refine ⟨?_, hne _ (by decide), hne _ (by decide), hne _ (by decide)⟩
  have hbig : ¬ b ≤ 13 := by
    rw [UInt8.le_iff_toNat_le]
    exact fun h => absurd (hlow.trans h) (by decide)
  simp [isSpace, hbig, hne 32 (by decide)]

/-- A number is what is skipped and what is left. -/
theorem exists_eq_append_digitsFrom (l : List UInt8) :
    ∃ spaces sign, Numeric spaces sign [] ∧ l = spaces ++ sign ++ digitsFrom l := by
  have hspaces := List.takeWhile_append_dropWhile (p := isSpace) (l := l)
  have hall : ∀ b ∈ l.takeWhile isSpace, isSpace b = true := fun b hb => List.mem_takeWhile_imp hb
  rw [digitsFrom]
  split
  · rename_i hsign
    cases hrest : l.dropWhile isSpace with
    | nil => simp [hrest] at hsign
    | cons b r =>
      rw [hrest] at hsign hspaces
      simp only [List.head?_cons, Option.some_inj] at hsign
      refine ⟨l.takeWhile isSpace, [b], ⟨hall, ?_, by simp⟩, ?_⟩
      · rcases hsign with rfl | rfl
        · exact .inr (.inl rfl)
        · exact .inr (.inr rfl)
      · rw [List.append_assoc]
        exact hspaces.symm
  · exact ⟨l.takeWhile isSpace, [], ⟨hall, .inl rfl, by simp⟩, by
      rw [List.append_nil, hspaces]⟩

/-- What follows the spaces and the sign of a number. -/
theorem digitsFrom_append {spaces sign : List UInt8} (h : Numeric spaces sign [])
    (hl : ∀ b ∈ l.head?, isDigit b = true) : digitsFrom (spaces ++ sign ++ l) = l := by
  obtain ⟨hspaces, hsign, -⟩ := h
  have hskip : ∀ r : List UInt8, (∀ b ∈ r.head?, isSpace b = false) →
      (spaces ++ r).dropWhile isSpace = r := by
    intro r hr
    rw [List.dropWhile_append_of_pos hspaces]
    cases r with
    | nil => rfl
    | cons b r => rw [List.dropWhile_cons_of_neg (by simp [hr b rfl])]
  rw [digitsFrom, List.append_assoc]
  rcases hsign with rfl | rfl | rfl
  · have hnosign : ¬ (l.head? = some 45 ∨ l.head? = some 43) := by
      rintro (h | h)
      · exact (not_of_isDigit (hl _ h)).2.1 rfl
      · exact (not_of_isDigit (hl _ h)).2.2.1 rfl
    rw [List.nil_append, hskip l fun b hb => (not_of_isDigit (hl b hb)).1]
    simp only [if_neg hnosign]
  · rw [hskip ([45] ++ l) (by simp; decide)]
    rfl
  · rw [hskip ([43] ++ l) (by simp; decide)]
    rfl

/-- `atoi` goes on to the end of what looks like a number to its end. -/
theorem dropWhile_digitsFrom_eq_nil : (digitsFrom l).dropWhile isDigit = [] ↔
    ∃ spaces sign digits, Numeric spaces sign digits ∧ l = spaces ++ sign ++ digits := by
  constructor
  · intro h
    obtain ⟨spaces, sign, ⟨hspaces, hsign, -⟩, heq⟩ := exists_eq_append_digitsFrom l
    exact ⟨spaces, sign, digitsFrom l, ⟨hspaces, hsign, List.dropWhile_eq_nil_iff.mp h⟩, heq⟩
  · rintro ⟨spaces, sign, digits, ⟨hspaces, hsign, hdigits⟩, rfl⟩
    rw [digitsFrom_append ⟨hspaces, hsign, by simp⟩ fun b hb =>
      hdigits b (List.mem_of_mem_head? hb)]
    exact List.dropWhile_eq_nil_iff.mpr hdigits

/-- The field is read inside the array. -/
theorem survives_atoiDigit (hroom : digit.length ≤ 10) : Survives (atoiDigit digit) ↔
    digit.length < 10 ∨ digit.length = 10 ∧
      ∀ spaces sign digits, Numeric spaces sign digits → digit ≠ spaces ++ sign ++ digits := by
  have hsurvives : Survives (atoiDigit digit) ↔
      (digitsFrom (buffer digit)).dropWhile isDigit ≠ [] := by
    rw [atoiDigit]
    split
    · rename_i hend
      refine iff_of_false (fun h => ?_) (not_not.mpr hend)
      obtain ⟨_, h⟩ := h
      cases h
    · rename_i hend
      exact iff_of_true ⟨_, rfl⟩ hend
  rw [hsurvives, ne_eq, dropWhile_digitsFrom_eq_nil]
  rcases Nat.lt_or_eq_of_le hroom with hlt | heq
  · -- there is a zero behind the digits
    refine iff_of_true ?_ (.inl hlt)
    rintro ⟨spaces, sign, digits, ⟨hspaces, hsign, hdigits⟩, hbuffer⟩
    have hzero : 0 ∈ buffer digit := by
      rw [buffer, List.mem_append, List.mem_replicate]
      exact .inr ⟨by omega, rfl⟩
    rw [hbuffer, List.mem_append, List.mem_append] at hzero
    rcases hzero with (hzero | hzero) | hzero
    · exact absurd (hspaces 0 hzero) (by decide)
    · rcases hsign with rfl | rfl | rfl
      · cases hzero
      · exact absurd hzero (by decide)
      · exact absurd hzero (by decide)
    · exact absurd (hdigits 0 hzero) (by decide)
  · have hfull : buffer digit = digit := by simp [buffer, heq]
    rw [hfull]
    simp only [heq, lt_irrefl, false_or, true_and, not_exists, not_and, ne_eq]

/-- A field that fits, with a colon behind it. -/
theorem exists_fdField_eq_ok : (∃ fd, fdField l = .ok (fd, r)) ↔
    ∃ digit, Fits digit ∧ l = digit ++ colon :: r := by
  constructor
  · rintro ⟨fd, h⟩
    obtain ⟨⟨digit, r'⟩, hfill, h⟩ := bind_eq_ok.mp h
    obtain ⟨fd', hatoi, h⟩ := bind_eq_ok.mp h
    obtain ⟨rfl, rfl⟩ := Prod.mk.inj (Except.ok.inj h)
    obtain ⟨⟨hcolon, heq⟩, hroom⟩ := fillDigits_eq_ok.mp hfill
    exact ⟨digit, ⟨hcolon, (survives_atoiDigit hroom).mp ⟨_, hatoi⟩⟩, heq⟩
  · rintro ⟨digit, ⟨hcolon, hfits⟩, heq⟩
    have hroom : digit.length ≤ 10 := hfits.elim Nat.le_of_lt fun h => h.1.le
    obtain ⟨fd, hatoi⟩ := (survives_atoiDigit hroom).mpr hfits
    exact ⟨fd, bind_eq_ok.mpr ⟨(digit, r), fillDigits_eq_ok.mpr ⟨⟨hcolon, heq⟩, hroom⟩,
      bind_eq_ok.mpr ⟨fd, hatoi, rfl⟩⟩⟩

/-! ### What `sscanf` assigns -/

/-- `%d` takes a number up to where its digits end. -/
theorem exists_scanInt_eq_some : (∃ fd, scanInt l = some (fd, r)) ↔
    ∃ number, IsNumber number ∧ l = number ++ r ∧ ∀ b ∈ r.head?, isDigit b = false := by
  have hscan : scanInt l = if (digitsFrom l).takeWhile isDigit = [] then none
      else some (atoi (l.dropWhile isSpace), (digitsFrom l).dropWhile isDigit) := rfl
  rw [hscan]
  constructor
  · rintro ⟨fd, h⟩
    obtain ⟨hdigits, h⟩ := Option.ite_none_left_eq_some.mp h
    obtain ⟨-, rfl⟩ := Prod.mk.inj (Option.some.inj h)
    obtain ⟨spaces, sign, ⟨hspaces, hsign, -⟩, heq⟩ := exists_eq_append_digitsFrom l
    refine ⟨spaces ++ sign ++ (digitsFrom l).takeWhile isDigit,
      ⟨spaces, sign, _, ⟨hspaces, hsign, fun b hb => List.mem_takeWhile_imp hb⟩, hdigits, rfl⟩,
      ?_, fun b hb => ?_⟩
    · rw [List.append_assoc, List.takeWhile_append_dropWhile, ← heq]
    · have hhead := List.head?_dropWhile_not isDigit (digitsFrom l)
      rw [Option.mem_def.mp hb] at hhead
      simpa using hhead
  · rintro ⟨number, ⟨spaces, sign, digits, ⟨hspaces, hsign, hdigits⟩, hne, rfl⟩, rfl, hr⟩
    obtain ⟨d, digits, rfl⟩ := List.exists_cons_of_ne_nil hne
    have hfrom : digitsFrom (spaces ++ sign ++ d :: digits ++ r) = d :: digits ++ r := by
      rw [List.append_assoc]
      refine digitsFrom_append ⟨hspaces, hsign, by simp⟩ fun b hb => ?_
      obtain rfl := Option.some.inj hb
      exact hdigits _ List.mem_cons_self
    have hstop : r.takeWhile isDigit = [] ∧ r.dropWhile isDigit = r := by
      cases r with
      | nil => exact ⟨rfl, rfl⟩
      | cons b r => simp [hr b rfl]
    rw [hfrom, List.takeWhile_append_of_pos hdigits, List.dropWhile_append_of_pos hdigits, hstop.1,
      hstop.2, List.append_nil, if_neg (List.cons_ne_nil _ _)]
    exact ⟨_, rfl⟩

/-- `:%d` takes a number behind a colon. -/
theorem exists_scanField_eq_some : (∃ fd, scanField l = some (fd, r)) ↔
    ∃ number, IsNumber number ∧ l = colon :: (number ++ r) ∧ ∀ b ∈ r.head?, isDigit b = false := by
  cases l with
  | nil =>
    refine iff_of_false (fun h => ?_) fun h => ?_
    · obtain ⟨_, h⟩ := h
      cases h
    · obtain ⟨_, -, h, -⟩ := h
      cases h
  | cons b l =>
    rw [scanField]
    by_cases hb : b = colon
    · simp only [hb, if_true, exists_scanInt_eq_some, List.cons.injEq, true_and]
    · rw [if_neg hb]
      refine iff_of_false (fun h => ?_) fun h => ?_
      · obtain ⟨_, h⟩ := h
        cases h
      · obtain ⟨_, -, h, -⟩ := h
        exact hb (List.cons.inj h).1

/-- One more `:%d`. -/
theorem exists_sscanf_eq_cons {n : ℕ} {fds : List ℤ} :
    (∃ fd, sscanf (n + 1) l = fd :: fds) ↔
      ∃ r, (∃ fd, scanField l = some (fd, r)) ∧ sscanf n r = fds := by
  rw [sscanf]
  cases scanField l with
  | none => simp
  | some x => simp [Prod.ext_iff, eq_comm]

/-- Two numbers are assigned. -/
theorem exists_sscanf_three : (∃ fdIn fdOut timed, sscanf 3 l = fdIn :: fdOut :: timed) ↔
    ∃ fdIn fdOut rest, IsNumber fdIn ∧ IsNumber fdOut ∧
      l = colon :: (fdIn ++ colon :: (fdOut ++ rest)) := by
  have htwo : (∃ fdIn fdOut timed, sscanf 3 l = fdIn :: fdOut :: timed) ↔
      ∃ r r', (∃ fd, scanField l = some (fd, r)) ∧ ∃ fd, scanField r = some (fd, r') := by
    constructor
    · rintro ⟨fdIn, fdOut, timed, h⟩
      obtain ⟨r, hfirst, h⟩ := exists_sscanf_eq_cons.mp ⟨fdIn, h⟩
      obtain ⟨r', hsecond, -⟩ := exists_sscanf_eq_cons.mp ⟨fdOut, h⟩
      exact ⟨r, r', hfirst, hsecond⟩
    · rintro ⟨r, r', hfirst, hsecond⟩
      obtain ⟨fdOut, h⟩ := exists_sscanf_eq_cons.mpr ⟨r', hsecond, rfl⟩
      obtain ⟨fdIn, h⟩ := exists_sscanf_eq_cons.mpr ⟨r, hfirst, h⟩
      exact ⟨fdIn, fdOut, _, h⟩
  rw [htwo]
  constructor
  · rintro ⟨r, r', hfirst, hsecond⟩
    obtain ⟨fdIn, hin, rfl, -⟩ := exists_scanField_eq_some.mp hfirst
    obtain ⟨fdOut, hout, rfl, -⟩ := exists_scanField_eq_some.mp hsecond
    exact ⟨fdIn, fdOut, r', hin, hout, rfl⟩
  · rintro ⟨fdIn, fdOut, rest, hin, hout, rfl⟩
    refine ⟨colon :: (fdOut ++ rest), rest.dropWhile isDigit, ?_, ?_⟩
    · exact exists_scanField_eq_some.mpr ⟨fdIn, hin, rfl, isDigit_head_colon _⟩
    · -- digits of the rest are part of the number
      obtain ⟨spaces, sign, digits, ⟨hspaces, hsign, hdigits⟩, hne, rfl⟩ := hout
      refine exists_scanField_eq_some.mpr
        ⟨spaces ++ sign ++ (digits ++ rest.takeWhile isDigit), ⟨spaces, sign, _,
          ⟨hspaces, hsign, fun b hb => ?_⟩, List.append_ne_nil_of_left_ne_nil hne _, rfl⟩,
        ?_, fun b hb => ?_⟩
      · rcases List.mem_append.mp hb with hb | hb
        · exact hdigits b hb
        · exact List.mem_takeWhile_imp hb
      · simp only [List.append_assoc, List.takeWhile_append_dropWhile]
      · have hhead := List.head?_dropWhile_not isDigit rest
        rw [Option.mem_def.mp hb] at hhead
        simpa using hhead

/-! ### The scanners -/

theorem survives_deserializePipe (serial : Argument) :
    Survives (deserializePipe serial) ↔ OneField serial.bytes := by
  rw [deserializePipe, survives_bind]
  constructor
  · rintro ⟨⟨type, rest⟩, htype, h⟩
    obtain ⟨⟨fdIn, rest'⟩, hfield, -⟩ := survives_bind.mp h
    obtain ⟨hcolon, heq⟩ := untilColon_eq_ok.mp htype
    obtain ⟨digit, hfits, rfl⟩ := exists_fdField_eq_ok.mp ⟨fdIn, hfield⟩
    exact ⟨type, digit, rest', hcolon, hfits, heq⟩
  · rintro ⟨type, digit, rest, hcolon, hfits, heq⟩
    obtain ⟨fdIn, hfield⟩ := exists_fdField_eq_ok.mpr ⟨digit, hfits, rfl⟩
    exact ⟨_, untilColon_eq_ok.mpr ⟨hcolon, heq⟩, survives_bind.mpr ⟨_, hfield, _, rfl⟩⟩

theorem survives_parsePipe (serial : Argument) :
    Survives (parsePipe serial) ↔ TwoNumbers serial.bytes := by
  rw [parsePipe, survives_bind]
  constructor
  · rintro ⟨x, hsearch, h⟩
    cases x with
    | none =>
      obtain ⟨_, h⟩ := h
      cases h
    | some x =>
      obtain ⟨⟨hcolon, heq⟩, hlength⟩ := searchColon_eq_ok.mp hsearch
      have hassigned : ∃ fdIn fdOut timed, sscanf 3 (colon :: x.2) = fdIn :: fdOut :: timed := by
        obtain ⟨_, h⟩ := h
        rcases hfds : sscanf 3 (colon :: x.2) with _ | ⟨fdIn, _ | ⟨fdOut, timed⟩⟩
        · simp [hfds] at h
        · simp [hfds] at h
        · exact ⟨fdIn, fdOut, timed, rfl⟩
      obtain ⟨fdIn, fdOut, rest, hin, hout, hrest⟩ := exists_sscanf_three.mp hassigned
      exact ⟨x.1, fdIn, fdOut, rest, hcolon, hlength, hin, hout, hrest ▸ heq⟩
  · rintro ⟨name, fdIn, fdOut, rest, hcolon, hlength, hin, hout, heq⟩
    obtain ⟨_, _, _, hfds⟩ := exists_sscanf_three.mpr ⟨fdIn, fdOut, rest, hin, hout, rfl⟩
    refine ⟨_, searchColon_eq_ok.mpr ⟨⟨hcolon, heq⟩, hlength⟩, ?_⟩
    simp only [hfds]
    exact ⟨_, rfl⟩

/-- The length of the name, as the first pass finds it. -/
def nameLength (serial : Argument) : ℕ := (serial.bytes.takeWhile (· ≠ colon)).length

theorem nameLength_eq {serial : Argument} (h : Splits serial.bytes name r) :
    nameLength serial = name.length := by
  obtain ⟨hcolon, heq⟩ := h
  have hname : ∀ b ∈ name, decide (b ≠ colon) = true := fun b hb =>
    decide_eq_true fun h => hcolon (h ▸ hb)
  rw [nameLength, heq, List.takeWhile_append_of_pos hname]
  simp

/-- The first pass needs the first field. -/
theorem survives_measure (t : VoterM.Lengths) (serial : Argument) : Survives (measure t serial) ↔
    ∃ name r, Splits serial.bytes name r ∧ name.length < 100 ∧
      ∃ digit rest, Fits digit ∧ r = digit ++ colon :: rest := by
  rw [measure, survives_bind]
  constructor
  · rintro ⟨x, hsearch, h⟩
    cases x with
    | none =>
      obtain ⟨_, h⟩ := h
      cases h
    | some x =>
      obtain ⟨hsplits, hlength⟩ := searchColon_eq_ok.mp hsearch
      obtain ⟨⟨fdIn, rest⟩, hfield, -⟩ := survives_bind.mp h
      obtain ⟨digit, hfits, heq⟩ := exists_fdField_eq_ok.mp ⟨fdIn, hfield⟩
      exact ⟨x.1, x.2, hsplits, hlength, digit, rest, hfits, heq⟩
  · rintro ⟨name, r, hsplits, hlength, digit, rest, hfits, heq⟩
    obtain ⟨fdIn, hfield⟩ := exists_fdField_eq_ok.mpr ⟨digit, hfits, heq⟩
    refine ⟨_, searchColon_eq_ok.mpr ⟨hsplits, hlength⟩, survives_bind.mpr ⟨_, hfield, ?_⟩⟩
    dsimp only
    split <;> exact ⟨_, rfl⟩

/-- It stores the length of the name. -/
theorem strLengths_measure {t t' : VoterM.Lengths} {serial : Argument}
    (h : measure t serial = .ok t') : t'.strLengths = t.strLengths ++ [nameLength serial] := by
  obtain ⟨x, hsearch, h⟩ := bind_eq_ok.mp h
  cases x with
  | none => cases h
  | some x =>
    obtain ⟨hsplits, -⟩ := searchColon_eq_ok.mp hsearch
    obtain ⟨⟨fdIn, rest⟩, -, h⟩ := bind_eq_ok.mp h
    rw [nameLength_eq hsplits]
    dsimp only at h
    split at h
    · rw [← Except.ok.inj h]
    · rw [← Except.ok.inj h]

theorem strLengths_foldlM {args : List Argument} {t t' : VoterM.Lengths}
    (h : args.foldlM measure t = .ok t') :
    t'.strLengths = t.strLengths ++ args.map nameLength := by
  induction args generalizing t with
  | nil =>
    rw [← Except.ok.inj h]
    exact (List.append_nil _).symm
  | cons serial args ih =>
    rw [List.foldlM_cons] at h
    obtain ⟨t₁, hfirst, hrest⟩ := bind_eq_ok.mp h
    rw [ih hrest, strLengths_measure hfirst, List.append_assoc]
    rfl

/-- The second pass needs the field behind it as well. -/
theorem survives_scanArg (serial : Argument) (strLength : ℕ) : Survives (scanArg serial strLength) ↔
    ∃ fdIn fdOut rest, Fits fdIn ∧ Fits fdOut ∧
      serial.bytes.drop (strLength + 1) = fdIn ++ colon :: (fdOut ++ colon :: rest) := by
  rw [scanArg, survives_bind]
  constructor
  · rintro ⟨⟨fdIn, r⟩, hin, h⟩
    obtain ⟨⟨fdOut, rest⟩, hout, -⟩ := survives_bind.mp h
    obtain ⟨l, hfits, heq⟩ := exists_fdField_eq_ok.mp ⟨fdIn, hin⟩
    obtain ⟨l', hfits', rfl⟩ := exists_fdField_eq_ok.mp ⟨fdOut, hout⟩
    exact ⟨l, l', rest, hfits, hfits', heq⟩
  · rintro ⟨l, l', rest, hfits, hfits', heq⟩
    obtain ⟨fdIn, hin⟩ := exists_fdField_eq_ok.mpr ⟨l, hfits, heq⟩
    obtain ⟨fdOut, hout⟩ := exists_fdField_eq_ok.mpr ⟨l', hfits', rfl⟩
    exact ⟨_, hin, survives_bind.mpr ⟨_, hout, _, rfl⟩⟩

/-- Both passes get through an argument. -/
theorem survives_both (t : VoterM.Lengths) (serial : Argument) :
    Survives (measure t serial) ∧ Survives (scanArg serial (nameLength serial)) ↔
      TwoFields serial.bytes := by
  rw [survives_measure, survives_scanArg]
  have hdrop : ∀ {name r}, Splits serial.bytes name r →
      serial.bytes.drop (nameLength serial + 1) = r := by
    intro name r h
    rw [nameLength_eq h, h.2, drop_field]
  constructor
  · rintro ⟨⟨name, r, hsplits, hlength, -⟩, fdIn, fdOut, rest, hin, hout, heq⟩
    rw [hdrop hsplits] at heq
    exact ⟨name, fdIn, fdOut, rest, hsplits.1, hlength, hin, hout, heq ▸ hsplits.2⟩
  · rintro ⟨name, fdIn, fdOut, rest, hcolon, hlength, hin, hout, heq⟩
    have hsplits : Splits serial.bytes name (fdIn ++ colon :: (fdOut ++ colon :: rest)) :=
      ⟨hcolon, heq⟩
    exact ⟨⟨name, _, hsplits, hlength, fdIn, _, hin, rfl⟩,
      fdIn, fdOut, rest, hin, hout, hdrop hsplits⟩

theorem survives_parsePipes (memory : VoterM.Table) (args : List Argument) :
    Survives (parsePipes memory args) ↔ ∀ serial ∈ args, TwoFields serial.bytes := by
  have hfirst := survives_foldlM (f := measure) (P := fun serial =>
    Survives (measure ⟨[], 0, 0⟩ serial)) (fun t serial => by
      rw [survives_measure, survives_measure]) args ⟨[], 0, 0⟩
  have hsecond := survives_foldlM (f := fun (t : VoterM.Table) (x : Argument × ℕ) =>
    (scanArg x.1 x.2).map t.enter) (P := fun x => Survives (scanArg x.1 x.2))
    fun _ _ => survives_map
  have hzip : ∀ {lengths : VoterM.Lengths}, args.foldlM measure ⟨[], 0, 0⟩ = .ok lengths →
      args.zip lengths.strLengths = args.map fun serial => (serial, nameLength serial) := by
    intro lengths h
    rw [strLengths_foldlM h, List.nil_append, List.zip_map_right, List.zip_eq_zipWith]
    simp
  simp only [← survives_both ⟨[], 0, 0⟩, forall_and]
  rw [parsePipes, survives_bind, ← hfirst]
  constructor
  · rintro ⟨lengths, hlengths, h⟩
    rw [hsecond, hzip hlengths, List.forall_mem_map] at h
    exact ⟨⟨lengths, hlengths⟩, h⟩
  · rintro ⟨⟨lengths, hlengths⟩, h⟩
    refine ⟨lengths, hlengths, ?_⟩
    rw [hsecond, hzip hlengths, List.forall_mem_map]
    exact h

/-- **The strings the scanners get through.** `deserializePipe` needs two colons with at most nine
bytes between them, or ten that do not all look like a number; VoterD's `parsePipe` a colon among
the first 100 bytes and two numbers behind it; VoterM's `parseArgs` in every argument a colon there
and two more, with such fields between them. -/
theorem scanners_survive_iff (serial : Argument) (memory : VoterM.Table) (args : List Argument) :
    (Survives (deserializePipe serial) ↔ OneField serial.bytes) ∧
      (Survives (parsePipe serial) ↔ TwoNumbers serial.bytes) ∧
      (Survives (parsePipes memory args) ↔ ∀ serial ∈ args, TwoFields serial.bytes) :=
  ⟨survives_deserializePipe serial, survives_parsePipe serial, survives_parsePipes memory args⟩

/-- The search is given up behind `n` bytes. -/
theorem searchColon_of_notMem {n : ℕ} (h : colon ∉ l.take n) (hn : n ≤ l.length) :
    searchColon n l = .ok none := by
  induction l generalizing n with
  | nil =>
    obtain rfl := Nat.le_zero.mp hn
    rfl
  | cons b l ih =>
    cases n with
    | zero => rfl
    | succ n =>
      rw [List.take_succ_cons, List.mem_cons, not_or] at h
      rw [searchColon, if_neg (Ne.symm h.1), ih h.2 (Nat.le_of_succ_le_succ hn)]
      rfl

/-- A name alone. -/
def bare : Argument := ⟨cString "WAY_REQ", by decide⟩

/-- A descriptor of eleven digits. -/
def elevenDigits : Argument := ⟨cString "WAY_REQ:12345678901:0:0", by decide⟩

/-- A name of 100 bytes. -/
def longName : Argument :=
  ⟨List.replicate 100 65 ++ cString ":5:0:0", by decide⟩

/-- Each way to go wrong. -/
theorem scanners_fault :
    (deserializePipe bare = .error .pastTerminator ∧ parsePipe bare = .error .pastTerminator ∧
      ∀ memory, parsePipes memory [bare] = .error .pastTerminator) ∧
    (deserializePipe elevenDigits = .error .pastBuffer ∧
      ∀ memory, parsePipes memory [elevenDigits] = .error .pastBuffer) ∧
    (parsePipe longName = .error .unset ∧
      ∀ memory, parsePipes memory [longName] = .error .unset) ∧
    ¬ ∀ serial : Argument, Survives (deserializePipe serial) ∧ Survives (parsePipe serial) := by
  have hsearch : searchColon 100 longName.bytes = .ok none :=
    searchColon_of_notMem (by decide) (by decide)
  refine ⟨⟨rfl, rfl, fun _ => rfl⟩, ⟨rfl, fun _ => rfl⟩, ⟨?_, fun memory => ?_⟩, fun h => ?_⟩
  · rw [parsePipe, hsearch]
    rfl
  · rw [parsePipes, List.foldlM_cons, measure, hsearch]
    rfl
  · obtain ⟨⟨pipe, hpipe⟩, -⟩ := h bare
    have hfault : deserializePipe bare = .error .pastTerminator := rfl
    rw [hfault] at hpipe
    cases hpipe

/-! ### The readers of well-formed arguments -/

theorem splits_of_scanColon (h : scanColon l = some (name, r)) : Splits l name r := by
  induction l generalizing name with
  | nil => cases h
  | cons b l ih =>
    rw [scanColon] at h
    split at h
    · rename_i hb
      obtain ⟨rfl, rfl⟩ := Prod.mk.inj (Option.some.inj h)
      rw [hb, splits_colon]
      exact ⟨rfl, rfl⟩
    · rename_i hb
      obtain ⟨⟨name', r'⟩, hrest, hcons⟩ := Option.map_eq_some_iff.mp h
      obtain ⟨rfl, rfl⟩ := Prod.mk.inj hcons
      exact (splits_cons hb).mpr ⟨name', ih hrest, rfl⟩

/-- The zeros of the array end the number. -/
theorem atoi_append_zero (l r : List UInt8) : atoi (l ++ 0 :: r) = atoi l := by
  have htake : ∀ l : List UInt8, (l ++ 0 :: r).takeWhile isDigit = l.takeWhile isDigit := by
    intro l
    induction l with
    | nil => rfl
    | cons b l ih =>
      rw [List.cons_append, List.takeWhile_cons, List.takeWhile_cons, ih]
  induction l with
  | nil => rfl
  | cons b l ih =>
    by_cases hb : isSpace b = true
    · rw [List.cons_append, atoi, atoi, List.dropWhile_cons_of_pos hb, List.dropWhile_cons_of_pos hb]
      rw [atoi, atoi] at ih
      exact ih
    · have hdigits := htake (b :: l)
      rw [List.cons_append] at hdigits
      rw [List.cons_append, atoi, atoi, List.dropWhile_cons_of_neg hb, List.dropWhile_cons_of_neg hb]
      simp only [htake, hdigits]

theorem fdField_of_scanColon (h : scanColon l = some (digit, r)) (hlength : digit.length < 10) :
    fdField l = .ok (atoi digit, r) := by
  have hfill : fillDigits 10 l = .ok (digit, r) :=
    fillDigits_eq_ok.mpr ⟨splits_of_scanColon h, hlength.le⟩
  obtain ⟨fd, hfd⟩ := (survives_atoiDigit hlength.le).mpr (.inl hlength)
  have hvalue : fd = atoi digit := by
    rw [atoiDigit] at hfd
    split at hfd
    · cases hfd
    · obtain ⟨k, hk⟩ : ∃ k, 10 - digit.length = k + 1 := ⟨9 - digit.length, by omega⟩
      rw [← Except.ok.inj hfd, buffer, hk, List.replicate_succ, atoi_append_zero]
  exact bind_eq_ok.mpr ⟨_, hfill, bind_eq_ok.mpr ⟨fd, hfd, by rw [hvalue]⟩⟩

/-- A pipe that `deserializePipe` reads is read here. -/
theorem deserializePipe_of_some {serial : Argument} {pipe : TypedPipe}
    (h : S3RES.deserializePipe serial.bytes = some pipe) : deserializePipe serial = .ok pipe := by
  obtain ⟨⟨type, rest⟩, htype, h⟩ := Option.bind_eq_some_iff.mp h
  obtain ⟨⟨digit, rest'⟩, hdigit, h⟩ := Option.bind_eq_some_iff.mp h
  obtain ⟨hlength, h⟩ := Option.ite_none_right_eq_some.mp h
  have hsplits := splits_of_scanColon htype
  have hname : type.takeWhile (· ≠ 0) = type := by
    refine List.takeWhile_eq_self_iff.mpr fun b hb => decide_eq_true fun hzero => ?_
    exact serial.terminated (hsplits.2 ▸ List.mem_append_left _ (hzero ▸ hb))
  refine bind_eq_ok.mpr ⟨_, untilColon_eq_ok.mpr hsplits, bind_eq_ok.mpr
    ⟨_, fdField_of_scanColon hdigit hlength, ?_⟩⟩
  rw [← Option.some.inj h]
  dsimp only
  rw [hname]

theorem splits_of_firstColon {i : ℕ} (h : firstColon l = some i) :
    Splits l (l.take i) (l.drop (i + 1)) ∧ (l.take i).length = i ∧ i < 100 := by
  obtain ⟨hcolon, hi, hbefore⟩ := List.find?_range_eq_some.mp h
  obtain ⟨hlt, hcolon⟩ := List.getElem?_eq_some_iff.mp (of_decide_eq_true hcolon)
  refine ⟨⟨fun hmem => ?_, ?_⟩, List.length_take_of_le hlt.le, List.mem_range.mp hi⟩
  · obtain ⟨j, hj, heq⟩ := List.getElem_of_mem hmem
    rw [List.length_take_of_le hlt.le] at hj
    rw [List.getElem_take] at heq
    have hj' : l[j]? = some colon := List.getElem?_eq_some_iff.mpr ⟨hj.trans hlt, heq⟩
    simpa [hj'] using hbefore j hj
  · rw [← hcolon, ← List.drop_eq_getElem_cons hlt, List.take_append_drop]

theorem searchColon_of_firstColon {i : ℕ} (h : firstColon l = some i) :
    searchColon 100 l = .ok (some (l.take i, l.drop (i + 1))) := by
  obtain ⟨hsplits, hlength, hi⟩ := splits_of_firstColon h
  exact searchColon_eq_ok.mpr ⟨hsplits, hlength.trans_lt hi⟩

theorem sscanf_of_scanFields {fdIn fdOut timed : ℤ} (h : scanFields l = some (fdIn, fdOut, timed)) :
    sscanf 3 l = [fdIn, fdOut, timed] := by
  obtain ⟨⟨a, l₁⟩, ha, h⟩ := Option.bind_eq_some_iff.mp h
  obtain ⟨⟨b, l₂⟩, hb, h⟩ := Option.bind_eq_some_iff.mp h
  obtain ⟨⟨c, l₃⟩, hc, h⟩ := Option.bind_eq_some_iff.mp h
  obtain ⟨rfl, rfl, rfl⟩ : a = fdIn ∧ b = fdOut ∧ c = timed := by
    simpa only [Option.some_inj, Prod.mk.injEq] using h
  simp only [sscanf, ha, hb, hc]

/-- So is one that VoterD reads. -/
theorem parsePipe_of_some {serial : Argument} {e : VoterD.ExtPipe}
    (h : VoterD.parsePipeString serial.bytes = some e) : ∃ timed : ℤ,
      parsePipe serial = .ok ⟨e.repInfo, e.fdIn, e.fdOut, some timed⟩ ∧
        e.timed = decide (timed ≠ 0) := by
  obtain ⟨i, hi, h⟩ := Option.bind_eq_some_iff.mp h
  obtain ⟨⟨fdIn, fdOut, timed⟩, hfields, h⟩ := Option.bind_eq_some_iff.mp h
  obtain ⟨hsplits, hlength, -⟩ := splits_of_firstColon hi
  have hdrop : serial.bytes.drop i = colon :: serial.bytes.drop (i + 1) := by
    conv_lhs => rw [hsplits.2]
    exact List.drop_left' hlength
  rw [hdrop] at hfields
  refine ⟨timed, bind_eq_ok.mpr ⟨_, searchColon_of_firstColon hi, ?_⟩, ?_⟩
  · rw [← Option.some.inj h]
    simp only [sscanf_of_scanFields hfields]
    rfl
  · rw [← Option.some.inj h]

theorem fdField_of_pipeFdString (h : VoterM.pipeFdString l = some digit) :
    fdField l = .ok (atoi digit, l.drop (digit.length + 1)) := by
  obtain ⟨⟨digit', r⟩, hscan, h⟩ := Option.bind_eq_some_iff.mp h
  obtain ⟨hlength, h⟩ := Option.ite_none_right_eq_some.mp h
  obtain rfl := Option.some.inj h
  have hr : l.drop (digit'.length + 1) = r := by
    rw [(splits_of_scanColon hscan).2, drop_field]
  rw [hr]
  exact fdField_of_scanColon hscan hlength

theorem measure_of_some {t t' : VoterM.Lengths} {serial : Argument}
    (h : t.measure serial.bytes = some t') : measure t serial = .ok t' := by
  obtain ⟨j, hj, h⟩ := Option.bind_eq_some_iff.mp h
  obtain ⟨digit, hdigit, h⟩ := Option.bind_eq_some_iff.mp h
  refine bind_eq_ok.mpr ⟨_, searchColon_of_firstColon hj, bind_eq_ok.mpr
    ⟨_, fdField_of_pipeFdString hdigit, ?_⟩⟩
  dsimp only
  rw [(splits_of_firstColon hj).2.1]
  split at h
  · rename_i hin
    rw [if_pos hin, Option.some.inj h]
  · rename_i hin
    rw [if_neg hin, Option.some.inj h]

theorem scanArg_of_some {serial : Argument} {strLength : ℕ} {arg : VoterM.Scanned}
    (h : VoterM.scanArg serial.bytes strLength = some arg) :
    scanArg serial strLength = .ok arg := by
  obtain ⟨l, hin, h⟩ := Option.bind_eq_some_iff.mp h
  obtain ⟨l', hout, h⟩ := Option.bind_eq_some_iff.mp h
  have hfield := fdField_of_pipeFdString hout
  rw [add_assoc _ l.length 1, ← List.drop_drop] at hfield
  refine bind_eq_ok.mpr ⟨_, fdField_of_pipeFdString hin, bind_eq_ok.mpr ⟨_, hfield, ?_⟩⟩
  rw [← Option.some.inj h, List.drop_drop, List.drop_drop]
  simp only [add_assoc]

/-- Rounds that have the same results. -/
theorem foldlM_of_some {α β γ : Type} {f : β → γ → Option β} {g : β → α → Except Fault β}
    {φ : α → γ} (h : ∀ b a b', f b (φ a) = some b' → g b a = .ok b') {l : List α} {b b' : β}
    (hl : (l.map φ).foldlM f b = some b') : l.foldlM g b = .ok b' := by
  induction l generalizing b with
  | nil => exact congrArg _ (Option.some.inj hl)
  | cons a l ih =>
    rw [List.map_cons, List.foldlM_cons] at hl
    obtain ⟨b₁, hfirst, hrest⟩ := Option.bind_eq_some_iff.mp hl
    exact bind_eq_ok.mpr ⟨b₁, h b a b₁ hfirst, ih hrest⟩

/-- So are those that VoterM reads. -/
theorem parsePipes_of_some {memory t : VoterM.Table} {args : List Argument}
    (h : VoterM.parsePipeStrings memory (args.map Argument.bytes) = some t) :
    parsePipes memory args = .ok t := by
  obtain ⟨lengths, hlengths, h⟩ := Option.bind_eq_some_iff.mp h
  refine bind_eq_ok.mpr ⟨lengths, foldlM_of_some (fun _ _ _ => measure_of_some) hlengths, ?_⟩
  rw [List.zip_map_left] at h
  refine foldlM_of_some (fun t x t' hx => ?_) h
  obtain ⟨arg, harg, rfl⟩ := Option.map_eq_some_iff.mp hx
  exact map_eq_ok.mpr ⟨arg, scanArg_of_some harg, rfl⟩

end Scan

end S3RES
